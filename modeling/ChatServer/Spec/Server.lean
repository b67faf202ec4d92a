import ChatServer.Spec.IOCPServer
import ChatServer.Spec.ConnectionManager
import ChatServer.Spec.ChatRoom
import ChatServer.Spec.MessageStore

/-!
# The dispatcher

The handlers of `server.cpp` that the transport runs on the pool (`HandleConnect`,
`HandleMessage` with `ProcessCommand` and `BroadcastToRoom`, `HandleDisconnect`) and the
periodic sweep of `main`, over the application state `App` (the global controller, room
manager and message store, `g_client_names`, and the lines printed by `PrintServerLog`).

A handler reads the transport (`GetSocketAddress`, `GetClient`, `GetAllClients`) before it
asks anything of it, and what it asks is only `Send` and `DisconnectClient`, which change no
application state. So a handler is a function of the application state and the transport,
giving the new application state and the list of `Effect`s it asks of the transport, in
order; `Effect.apply` carries one out, with the environment's outcome of its `WSASend`.

Each component takes its own lock for one call only, and no handler holds a lock across its
calls, so other threads can run between any two calls of a handler. The model lets them in at
the four places where a handler reads a component and acts on what it read later:
`HandleConnect` between `AllowConnection` and `OnConnect`, `HandleMessage` between
`GetClientName` and `SetClientName` of a registration, `BroadcastToRoom` between `Store`
and `PrintServerLog`, and `HandleDisconnect` inside `OnDisconnect`, between its test of the
atomic count and the decrement. A handler is its first part (`Part`: it ran to its end, or it stopped
at one of these places with a `Resume`) followed by `Resume.run`.

A handler takes one reading of each clock (`Clock`): the steady clock for the controller
and the system clock, in seconds, for the message store. The lines `PrintServerLog` writes
are kept as records (`LogLine`), without their time prefix.
-/

namespace ChatServer

/-- A line written by `PrintServerLog`. -/
inductive LogLine where
  | rejected (ip : String)
  | connected (c : Int) (ip : String)
  | disconnected (c : Int) (name : String)
  | registered (c : Int) (name : String)
  | roomCreated (room name : String)
  | kicked (name target : String)
  | banned (name target : String)
  | muted (name target : String)
  | chat (room name message : String)
  | timedOut (c : Int)
  deriving DecidableEq, Repr

/-- The globals of `server.cpp` besides the transport and the pool. -/
structure App where
  connectionManager : ConnectionManager
  chatRooms : ChatRoomManager
  messageStore : MessageStore
  clientNames : UnorderedMap Int String
  log : List LogLine

/-- What a handler asks of the transport. -/
inductive Effect where
  | send (c : Int) (message : String)
  | disconnect (c : Int)
  deriving DecidableEq, Repr

/-- The clock readings of one handler: steady clock (nanoseconds), system clock (seconds). -/
structure Clock where
  steady : Int
  system : Int
  deriving DecidableEq, Repr

/-- `g_server->Send(c, msg, msg.length())`, whose `WSASend` is pending when `sendPending`, or
`g_server->DisconnectClient(c)`. -/
def Effect.apply (s : IOCPServer) (sendPending : Bool) : Effect → IOCPServer
  | .send c m => (s.send c m m.length sendPending).2
  | .disconnect c => s.disconnectClient c

/-- Carry out a handler's effects in order. `sent` holds the environment's outcomes of the
effects' `WSASend`s, one per effect in order (`false`: it failed at once); past its end they
are pending. -/
def IOCPServer.applyAll (s : IOCPServer) : List Effect → List Bool → IOCPServer
  | [], _ => s
  | e :: effs, sent => (Effect.apply s (sent.headD true) e).applyAll effs sent.tail

/-- `SendToClient`: nothing for an empty message, a newline added when it does not end in
one. -/
def sendToClient (c : Int) (message : String) : List Effect :=
  if message = "" then []
  else if message.toList.getLast? = some '\n' then [.send c message]
  else [.send c (message ++ "\n")]

/-- `SendToClient` to each of a list of clients. -/
def sendToAll (ids : List Int) (message : String) : List Effect :=
  ids.flatMap fun m => sendToClient m message

namespace App

/-- `GetClientName`: a client with no name is `User#<id>`. -/
def getClientName (a : App) (c : Int) : String :=
  (a.clientNames.find? c).getD ("User#" ++ toString c)

/-- `SetClientName`. -/
def setClientName (a : App) (c : Int) (name : String) : App :=
  { a with clientNames := a.clientNames.set c name }

/-- The loop of `ProcessCommand` that looks a client up by name in `g_client_names`: the
first entry in iteration order, `-1` when there is none. -/
def findClient (a : App) (targetName : String) : Int :=
  match a.clientNames.entries.find? fun p => p.2 = targetName with
  | some p => p.1
  | none => -1

/-- Append a line to the server log. -/
def print (a : App) (l : LogLine) : App := { a with log := a.log ++ [l] }

end App

/-! ## `std::istringstream` -/

/-- `isspace` in the C locale. -/
def isSpace (ch : Char) : Bool :=
  ch = ' ' || ch = '\t' || ch = '\n' || ch = '\x0B' || ch = '\x0C' || ch = '\r'

/-- An `std::istringstream` being read: the characters left, and whether it is still good
(no `failbit`, and no `eofbit` left by an extraction that reached the end). -/
structure Istream where
  rest : List Char
  good : Bool

/-- `iss >> s` for a `std::string`: skip blanks, read up to the next blank. `none` when the
extraction fails and `s` keeps its value. -/
def Istream.readWord (st : Istream) : Option String × Istream :=
  if !st.good then (none, st)
  else
    match st.rest.dropWhile isSpace with
    | [] => (none, ⟨[], false⟩)
    | r =>
      let rest := r.dropWhile fun ch => !isSpace ch
      (some ⟨r.takeWhile fun ch => !isSpace ch⟩, ⟨rest, !rest.isEmpty⟩)

/-- The value of a string of decimal digits. -/
def digitsValue (ds : List Char) : Nat :=
  ds.foldl (fun n d => 10 * n + (d.toNat - '0'.toNat)) 0

/-- `INT_MIN` and `INT_MAX`. -/
def intMin : Int := -2 ^ 31

def intMax : Int := 2 ^ 31 - 1

/-- `iss >> n` for an `int`: skip blanks, read an optional sign and digits. With no digits
the extraction fails and stores `0`; out of range it fails and stores the nearest bound.
`none` when the stream was already failed or empty, and `n` keeps its value. -/
def Istream.readInt (st : Istream) : Option Int × Istream :=
  if !st.good then (none, st)
  else
    match st.rest.dropWhile isSpace with
    | [] => (none, ⟨[], false⟩)
    | r =>
      let sign : Int := if r.head? = some '-' then -1 else 1
      let r := if r.head? = some '-' ∨ r.head? = some '+' then r.tail else r
      let ds := r.takeWhile Char.isDigit
      let rest := r.dropWhile Char.isDigit
      if ds = [] then (some 0, ⟨rest, false⟩)
      else
        let v := sign * digitsValue ds
        if v < intMin then (some intMin, ⟨rest, false⟩)
        else if v > intMax then (some intMax, ⟨rest, false⟩)
        else (some v, ⟨rest, !rest.isEmpty⟩)

/-- `std::getline(iss, s)`: the characters up to the next newline, which is consumed. -/
def Istream.getline (st : Istream) : Option String × Istream :=
  if !st.good then (none, st)
  else
    let tail := st.rest.dropWhile (· ≠ '\n')
    (some ⟨st.rest.takeWhile (· ≠ '\n')⟩, ⟨tail.drop 1, !tail.isEmpty⟩)

/-! ## Handlers -/

section Handlers

variable (localTime : Int → Tm)

/-- The welcome text of `HandleConnect`. -/
def welcome : String :=
  "Welcome to the chat server! You are in #general.\n" ++ "Type #help for available commands.\n"

/-- Where a handler stops for other threads, with the locals the rest of it reads. -/
inductive Resume where
  /-- `HandleConnect`, after `AllowConnection(ip)` returned true. -/
  | admitted (ip : String)
  /-- `HandleMessage`, after `GetClientName` returned the placeholder for the chunk `msg`. -/
  | naming (msg : String)
  /-- `BroadcastToRoom`, after `Store`, with the name and room it read. -/
  | stored (name room message : String)
  /-- `HandleDisconnect`, inside `OnDisconnect`: its test saw `current_connections` above zero,
  and the decrement is still to come; with the name and room it read. -/
  | releasing (name room : String)
  deriving DecidableEq, Repr

/-- The first part of a handler: it ran to its end, or it stopped. -/
inductive Part where
  | done (r : App × List Effect)
  | stopped (a : App) (k : Resume)

/-- `HandleConnect` up to `AllowConnection`: a refused connection is logged and the client
disconnected; an admitted one stops there. -/
def connectAllow (a : App) (srv : IOCPServer) (c : Int) (sock : Socket) (now : Int) : Part :=
  let ip := srv.socketAddress sock
  let r := a.connectionManager.allowConnection ip now
  let a := { a with connectionManager := r.2 }
  if !r.1 then .done (a.print (.rejected ip), [.disconnect c])
  else .stopped a (.admitted ip)

/-- The rest of `HandleConnect` for an admitted client: count the connection, put the client
in `general` and welcome it. -/
def connectAdmitted (a : App) (c : Int) (ip : String) : App × List Effect :=
  let a := { a with
    connectionManager := a.connectionManager.onConnect
    chatRooms := (a.chatRooms.joinRoom "general" c).2 }
  (a.print (.connected c ip), sendToClient c welcome)

/-- The registration of `HandleMessage` after `GetClientName` returned the placeholder: name
the client, then tell the others of its room. -/
def registerName (a : App) (c : Int) (msg : String) : App × List Effect :=
  let a := a.setClientName c msg
  let room := a.chatRooms.getClientRoom c
  let others := (a.chatRooms.getRoomMembers room).filter (· ≠ c)
  (a.print (.registered c msg), sendToAll others (msg ++ " has joined #" ++ room))

/-- The rest of `BroadcastToRoom` after `Store`: send `name: message` to the other members of
the room, then print the line. -/
def broadcastSend (a : App) (senderId : Int) (name room message : String) :
    App × List Effect :=
  let others := (a.chatRooms.getRoomMembers room).filter (· ≠ senderId)
  (a.print (.chat room name message), sendToAll others (name ++ ": " ++ message))

/-- The rest of `HandleDisconnect` after `OnDisconnect`: forget the name, tell the room the
client left, and print the line. -/
def disconnectRest (a : App) (c : Int) (name room : String) : App × List Effect :=
  let a := { a with clientNames := a.clientNames.erase c }
  let effs := if room ≠ "" then sendToAll (a.chatRooms.getRoomMembers room) (name ++ " has left the chat")
    else []
  (a.print (.disconnected c name), effs)

/-- The rest of the handler of client `c` from where it stopped. -/
def Resume.run (a : App) (c : Int) : Resume → App × List Effect
  | .admitted ip => connectAdmitted a c ip
  | .naming msg => registerName a c msg
  | .stored name room message => broadcastSend a c name room message
  | .releasing name room =>
    disconnectRest { a with connectionManager := a.connectionManager.releaseConnection } c name room

/-- A handler of client `c`: its first part, then the rest when it stopped. -/
def Part.finish (c : Int) : Part → App × List Effect
  | .done r => r
  | .stopped a k => k.run a c

/-- `HandleConnect`: refuse the connection through the controller (and disconnect the
client), or count it, put the client in `general` and welcome it. -/
def handleConnect (a : App) (srv : IOCPServer) (c : Int) (sock : Socket) (now : Int) :
    App × List Effect :=
  (connectAllow a srv c sock now).finish c

/-- `HandleDisconnect` up to the test of `OnDisconnect`: read the name and the room and leave
the room; a count above zero stops before its decrement, any other goes on without it. -/
def disconnectBegin (a : App) (c : Int) : Part :=
  let name := a.getClientName c
  let room := a.chatRooms.getClientRoom c
  let a := { a with chatRooms := a.chatRooms.leaveRoom c }
  if a.connectionManager.currentConnections > 0 then .stopped a (.releasing name room)
  else .done (disconnectRest a c name room)

/-- `HandleDisconnect`: leave the room, release the connection count, forget the name, and
tell the room. -/
def handleDisconnect (a : App) (c : Int) : App × List Effect :=
  (disconnectBegin a c).finish c

/-- `BroadcastToRoom` up to `Store`: read the sender's name and room and store the message. -/
def broadcastStore (a : App) (senderId : Int) (message : String) (clk : Clock) : Part :=
  let name := a.getClientName senderId
  let room := a.chatRooms.getClientRoom senderId
  let chatMsg : ChatMessage := ⟨senderId, name, room, message, clk.system⟩
  .stopped { a with messageStore := a.messageStore.store localTime chatMsg clk.system }
    (.stored name room message)

/-- `BroadcastToRoom`: store the message, then send `name: message` to the other members of
the sender's room. -/
def broadcastToRoom (a : App) (senderId : Int) (message : String) (clk : Clock) :
    App × List Effect :=
  (broadcastStore localTime a senderId message clk).finish senderId

/-- The text of `#help`. -/
def helpText : String :=
  "Available commands:\n" ++ "  #rooms     - List all chat rooms\n" ++
    "  #join <r>  - Join room <r>\n" ++ "  #create <r>- Create new room\n" ++
    "  #leave     - Leave to general\n" ++ "  #online    - List online users\n" ++
    "  #whisper <user> <msg> - Private message\n" ++ "  #history [n] - Show last n messages\n" ++
    "  \x23exit      - Disconnect\n"

/-- The text of `#rooms`. -/
def roomsText (m : ChatRoomManager) : String :=
  "Available rooms:\n" ++ String.join (m.listRooms.map fun room =>
    "  #" ++ room ++ " (" ++ toString (m.getRoomMembers room).length ++ " users)\n")

/-- The text of `#online`. -/
def onlineText (a : App) (srv : IOCPServer) : String :=
  let clients := srv.getAllClients
  "Online users (" ++ toString clients.length ++ "):\n" ++ String.join (clients.map fun client =>
    "  " ++ a.getClientName client.id ++ " (#" ++ a.chatRooms.getClientRoom client.id ++ ")\n")

/-- The text of `#history [n]`: `n` defaults to `10` and is clamped to `1..50`. -/
def historyText (a : App) (c : Int) (iss : Istream) : String :=
  let count := (iss.readInt.1).getD 10
  let count := if count < 1 then 10 else count
  let count := if count > 50 then 50 else count
  let room := a.chatRooms.getClientRoom c
  let messages := a.messageStore.getRecent room count.toNat
  "Last " ++ toString messages.length ++ " messages in #" ++ room ++ ":\n" ++
    String.join (messages.map fun msg => "  " ++ msg.toString localTime ++ "\n")

/-- `#join <room>`. -/
def joinCommand (a : App) (c : Int) (name : String) (iss : Istream) : App × List Effect :=
  let roomName := (iss.readWord.1).getD ""
  if roomName = "" then (a, sendToClient c "Usage: #join <room_name>")
  else
    let oldRoom := a.chatRooms.getClientRoom c
    if oldRoom = roomName then (a, sendToClient c ("You are already in #" ++ roomName))
    else
      let r := a.chatRooms.joinRoom roomName c
      if r.1 then
        let a := { a with chatRooms := r.2 }
        let left := if oldRoom ≠ "" then
            sendToAll (a.chatRooms.getRoomMembers oldRoom) (name ++ " left #" ++ oldRoom)
          else []
        let joined := sendToAll ((a.chatRooms.getRoomMembers roomName).filter (· ≠ c))
          (name ++ " joined #" ++ roomName)
        (a, left ++ joined ++ sendToClient c ("Joined #" ++ roomName))
      else (a, sendToClient c "Failed to join room. Does it exist?")

/-- `#create <room>`: create the room, then join it. -/
def createCommand (a : App) (c : Int) (name : String) (iss : Istream) :
    App × List Effect :=
  let roomName := (iss.readWord.1).getD ""
  if roomName = "" then (a, sendToClient c "Usage: #create <room_name>")
  else
    let r := a.chatRooms.createRoom roomName c
    if r.1 then
      let a := { a with chatRooms := (r.2.joinRoom roomName c).2 }
      (a.print (.roomCreated roomName name), sendToClient c ("Created and joined #" ++ roomName))
    else (a, sendToClient c "Failed to create room. Does it already exist?")

/-- `#leave`: back to `general`. -/
def leaveCommand (a : App) (c : Int) : App × List Effect :=
  let current := a.chatRooms.getClientRoom c
  if current ≠ "general" then
    ({ a with chatRooms := (a.chatRooms.joinRoom "general" c).2 },
      sendToClient c ("You left #" ++ current ++ " and joined #general"))
  else (a, sendToClient c "You are already in #general")

/-- `#whisper <user> <message>`: the message is the rest of the line. -/
def whisperCommand (a : App) (c : Int) (name : String) (iss : Istream) :
    App × List Effect :=
  let r := iss.readWord
  let targetName := r.1.getD ""
  let privateMsg := (r.2.getline.1).getD ""
  if targetName = "" ∨ privateMsg = "" then
    (a, sendToClient c "Usage: #whisper <username> <message>")
  else
    let targetId := a.findClient targetName
    if targetId = -1 then (a, sendToClient c ("User not found: " ++ targetName))
    else
      (a, sendToClient targetId ("[Whisper from " ++ name ++ "]:" ++ privateMsg) ++
        sendToClient c ("[Whisper to " ++ targetName ++ "]:" ++ privateMsg))

/-- `#kick <user>`. -/
def kickCommand (a : App) (c : Int) (name : String) (iss : Istream) : App × List Effect :=
  let targetName := (iss.readWord.1).getD ""
  let targetId := a.findClient targetName
  if targetId ≠ -1 then
    (a.print (.kicked name targetName),
      sendToClient targetId ("You have been kicked by " ++ name) ++ [.disconnect targetId] ++
        sendToClient c ("Kicked " ++ targetName))
  else (a, sendToClient c "User not found")

/-- `#ban <user>`: ban the address the transport recorded for the target, then disconnect
it. Nothing happens when the target is no longer registered. -/
def banCommand (a : App) (srv : IOCPServer) (c : Int) (name : String) (iss : Istream) :
    App × List Effect :=
  let targetName := (iss.readWord.1).getD ""
  let targetId := a.findClient targetName
  if targetId ≠ -1 then
    match srv.getClient targetId with
    | some client =>
      ({ a with connectionManager := a.connectionManager.ban client.ipAddress }.print
          (.banned name targetName),
        sendToClient targetId ("You have been banned by " ++ name) ++ [.disconnect targetId] ++
          sendToClient c ("Banned IP for " ++ targetName))
    | none => (a, [])
  else (a, sendToClient c "User not found")

/-- `#mute <user> [seconds]`: the duration defaults to `60`. -/
def muteCommand (a : App) (c : Int) (name : String) (iss : Istream) (now : Int) :
    App × List Effect :=
  let r := iss.readWord
  let targetName := r.1.getD ""
  let duration := (r.2.readInt.1).getD 60
  let targetId := a.findClient targetName
  if targetId ≠ -1 then
    ({ a with connectionManager := a.connectionManager.mute targetId duration now }.print
        (.muted name targetName),
      sendToClient targetId ("You have been muted for " ++ toString duration ++ " seconds") ++
        sendToClient c ("Muted " ++ targetName ++ " for " ++ toString duration ++ " seconds"))
  else (a, sendToClient c "User not found")

/-- `ProcessCommand`: dispatch on the first word. -/
def processCommand (a : App) (srv : IOCPServer) (c : Int) (cmd : String) (clk : Clock) :
    App × List Effect :=
  let name := a.getClientName c
  let r := (Istream.mk cmd.toList true).readWord
  let command := r.1.getD ""
  let iss := r.2
  if command = "\x23exit" then (a, [.disconnect c])
  else if command = "#help" then (a, sendToClient c helpText)
  else if command = "#rooms" then (a, sendToClient c (roomsText a.chatRooms))
  else if command = "#join" then joinCommand a c name iss
  else if command = "#create" then createCommand a c name iss
  else if command = "#leave" then leaveCommand a c
  else if command = "#online" then (a, sendToClient c (onlineText a srv))
  else if command = "#whisper" then whisperCommand a c name iss
  else if command = "#history" then (a, sendToClient c (historyText localTime a c iss))
  else if command = "#kick" then kickCommand a c name iss
  else if command = "#ban" then banCommand a srv c name iss
  else if command = "#mute" then muteCommand a c name iss clk.steady
  else (a, sendToClient c "Unknown command. Type #help for available commands.")

/-- The characters `HandleMessage` strips from the end of a chunk. -/
def isTrailing (ch : Char) : Bool := ch = '\n' || ch = '\r' || ch = '\x00'

/-- `while (!msg.empty() && trailing(msg.back())) msg.pop_back();` -/
def trimTrailing (s : String) : String := ⟨(s.toList.reverse.dropWhile isTrailing).reverse⟩

/-- `HandleMessage` of a chunk up to its first stop: rate limit, mute, then the first message
of an unnamed client names it (it stops after `GetClientName`); a line starting with `#` is a
command; anything else goes to the room (it stops after `Store`). -/
def messageBegin (a : App) (srv : IOCPServer) (c : Int) (message : String) (clk : Clock) :
    Part :=
  let msg := trimTrailing message
  if msg = "" then .done (a, [])
  else
    let r := a.connectionManager.allowMessage c clk.steady
    let a := { a with connectionManager := r.2 }
    if !r.1 then .done (a, sendToClient c "You are sending too many messages. Please slow down.")
    else
      let a := { a with connectionManager := a.connectionManager.recordMessage c clk.steady }
      let r := a.connectionManager.isMuted c clk.steady
      let a := { a with connectionManager := r.2 }
      if r.1 then .done (a, sendToClient c "You are muted.")
      else if a.getClientName c = "User#" ++ toString c ∧ msg.front ≠ '#' then
        .stopped a (.naming msg)
      else if msg.front = '#' then .done (processCommand localTime a srv c msg clk)
      else broadcastStore localTime a c msg clk

/-- `HandleMessage`: its first part, then the registration or the rest of `BroadcastToRoom`. -/
def handleMessage (a : App) (srv : IOCPServer) (c : Int) (message : String) (clk : Clock) :
    App × List Effect :=
  (messageBegin localTime a srv c message clk).finish c

/-- Run one task of the pool. -/
def runTask (a : App) (srv : IOCPServer) (clk : Clock) : Task → App × List Effect
  | .onConnect c sock => handleConnect a srv c sock clk.steady
  | .onMessage c m => handleMessage localTime a srv c m clk
  | .onDisconnect c => handleDisconnect a c

/-- The first part of a task's handler. -/
def beginTask (a : App) (srv : IOCPServer) (clk : Clock) : Task → Part
  | .onConnect c sock => connectAllow a srv c sock clk.steady
  | .onMessage c m => messageBegin localTime a srv c m clk
  | .onDisconnect c => disconnectBegin a c

/-- One iteration of the main loop: disconnect the clients whose recorded activity is older
than the timeout. -/
def sweep (a : App) (srv : IOCPServer) (now : Int) : App × List Effect :=
  let ids := a.connectionManager.checkTimeouts srv.getAllClients now
  ({ a with log := a.log ++ ids.map .timedOut }, ids.map .disconnect)

theorem runTask_eq (a : App) (srv : IOCPServer) (clk : Clock) (t : Task) :
    runTask localTime a srv clk t = (beginTask localTime a srv clk t).finish t.clientId := by
  cases t <;> rfl

/-- `HandleDisconnect` run to its end, as one function. -/
theorem handleDisconnect_eq (a : App) (c : Int) :
    handleDisconnect a c =
      let name := a.getClientName c
      let room := a.chatRooms.getClientRoom c
      let rooms := a.chatRooms.leaveRoom c
      let a := { a with
        chatRooms := rooms, connectionManager := a.connectionManager.onDisconnect
        clientNames := a.clientNames.erase c }
      let effs := if room ≠ "" then sendToAll (rooms.getRoomMembers room) (name ++ " has left the chat")
        else []
      (a.print (.disconnected c name), effs) := by
  by_cases h : a.connectionManager.currentConnections > 0 <;>
    simp only [handleDisconnect, disconnectBegin, ConnectionManager.onDisconnect, h, if_true,
      if_false] <;> rfl

/-- `HandleConnect` run to its end, as one function. -/
theorem handleConnect_eq (a : App) (srv : IOCPServer) (c : Int) (sock : Socket) (now : Int) :
    handleConnect a srv c sock now =
      let ip := srv.socketAddress sock
      let r := a.connectionManager.allowConnection ip now
      let a := { a with connectionManager := r.2 }
      if !r.1 then (a.print (.rejected ip), [.disconnect c])
      else
        let a := { a with
          connectionManager := a.connectionManager.onConnect
          chatRooms := (a.chatRooms.joinRoom "general" c).2 }
        (a.print (.connected c ip), sendToClient c welcome) := by
  simp only [handleConnect, connectAllow]
  split <;> rfl

/-- `BroadcastToRoom` run to its end, as one function. -/
theorem broadcastToRoom_eq (a : App) (senderId : Int) (message : String) (clk : Clock) :
    broadcastToRoom localTime a senderId message clk =
      let name := a.getClientName senderId
      let room := a.chatRooms.getClientRoom senderId
      let chatMsg : ChatMessage := ⟨senderId, name, room, message, clk.system⟩
      let a := { a with messageStore := a.messageStore.store localTime chatMsg clk.system }
      let others := (a.chatRooms.getRoomMembers room).filter (· ≠ senderId)
      (a.print (.chat room name message), sendToAll others (name ++ ": " ++ message)) :=
  rfl

/-- `HandleMessage` run to its end, as one function. -/
theorem handleMessage_eq (a : App) (srv : IOCPServer) (c : Int) (message : String)
    (clk : Clock) :
    handleMessage localTime a srv c message clk =
      let msg := trimTrailing message
      if msg = "" then (a, [])
      else
        let r := a.connectionManager.allowMessage c clk.steady
        let a := { a with connectionManager := r.2 }
        if !r.1 then (a, sendToClient c "You are sending too many messages. Please slow down.")
        else
          let a := { a with connectionManager := a.connectionManager.recordMessage c clk.steady }
          let r := a.connectionManager.isMuted c clk.steady
          let a := { a with connectionManager := r.2 }
          if r.1 then (a, sendToClient c "You are muted.")
          else if a.getClientName c = "User#" ++ toString c ∧ msg.front ≠ '#' then
            registerName a c msg
          else if msg.front = '#' then processCommand localTime a srv c msg clk
          else broadcastToRoom localTime a c msg clk := by
  simp only [handleMessage, messageBegin]
  split_ifs <;> rfl

end Handlers

end ChatServer
