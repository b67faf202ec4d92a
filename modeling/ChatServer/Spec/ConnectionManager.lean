import ChatServer.Spec.SockUtil

/-!
# The rate and policy controller

`ConnectionManager` of `connection_manager.h` / `connection_manager.cpp`. Each state family
has its own lock in the source, and every method holds its locks for its whole body, so each
method is one step here. A method that reads `steady_clock::now()` takes the reading as its
argument `now`; the readings a method takes in one call are taken to be equal.

`Config::heartbeat_interval_seconds` is not modelled: no method reads it.
-/

namespace ChatServer

/-- `ConnectionManager::Config`, with its defaults. -/
structure CMConfig where
  maxConnectionsPerSecond : Int := 50
  maxMessagesPerMinute : Int := 60
  connectionTimeoutSeconds : Int := 120
  maxTotalConnections : Int := 1000
  deriving DecidableEq, Repr

/-- The state of a `ConnectionManager`. The deques are lists, oldest first. -/
structure ConnectionManager where
  config : CMConfig
  connectionTimestamps : List Int
  clientMessages : UnorderedMap Int (List Int)
  bannedIps : UnorderedSet String
  mutedClients : UnorderedMap Int Int
  lastActivity : UnorderedMap Int Int
  currentConnections : Int

/-- `while (!d.empty() && d.front() < cutoff) d.pop_front();` -/
def pruneOlder (d : List Int) (cutoff : Int) : List Int :=
  d.dropWhile fun t => decide (t < cutoff)

namespace ConnectionManager

/-- The constructor `ConnectionManager(config)`. -/
def new (config : CMConfig) : ConnectionManager :=
  { config, connectionTimestamps := [], clientMessages := .empty, bannedIps := .empty,
    mutedClients := .empty, lastActivity := .empty, currentConnections := 0 }

/-- `IsBanned`. -/
def isBanned (cm : ConnectionManager) (ip : String) : Bool := decide (ip ∈ cm.bannedIps)

/-- `Ban`. -/
def ban (cm : ConnectionManager) (ip : String) : ConnectionManager :=
  { cm with bannedIps := cm.bannedIps.insert ip }

/-- `Unban`. -/
def unban (cm : ConnectionManager) (ip : String) : ConnectionManager :=
  { cm with bannedIps := cm.bannedIps.erase ip }

/-- `AllowConnection`: refuse a banned address or a full server, then apply the one-second
sliding window; the window is pruned even when the call refuses. -/
def allowConnection (cm : ConnectionManager) (ip : String) (now : Int) :
    Bool × ConnectionManager :=
  if cm.isBanned ip then (false, cm)
  else if cm.currentConnections ≥ cm.config.maxTotalConnections then (false, cm)
  else
    let ts := pruneOlder cm.connectionTimestamps (now - seconds 1)
    if ts.length ≥ sizeT cm.config.maxConnectionsPerSecond then
      (false, { cm with connectionTimestamps := ts })
    else (true, { cm with connectionTimestamps := ts ++ [now] })

/-- `IsMuted`: an expired mute is erased when it is read. -/
def isMuted (cm : ConnectionManager) (c : Int) (now : Int) :
    Bool × ConnectionManager :=
  match cm.mutedClients.find? c with
  | none => (false, cm)
  | some expiry =>
    if expiry ≠ timePointMax ∧ now > expiry then
      (false, { cm with mutedClients := cm.mutedClients.erase c })
    else (true, cm)

/-- `AllowMessage`: refuse a muted client, then apply the one-minute sliding window of the
client (`client_messages[c]` creates an empty window). -/
def allowMessage (cm : ConnectionManager) (c : Int) (now : Int) :
    Bool × ConnectionManager :=
  let r := cm.isMuted c now
  if r.1 then (false, r.2)
  else
    let cm := r.2
    let ts := pruneOlder ((cm.clientMessages.find? c).getD []) (now - minutes 1)
    (decide (ts.length < sizeT cm.config.maxMessagesPerMinute),
      { cm with clientMessages := cm.clientMessages.set c ts })

/-- `UpdateActivity`. -/
def updateActivity (cm : ConnectionManager) (c : Int) (now : Int) :
    ConnectionManager :=
  { cm with lastActivity := cm.lastActivity.set c now }

/-- `RecordMessage`: append the reading to the client's window and refresh its activity. -/
def recordMessage (cm : ConnectionManager) (c : Int) (now : Int) :
    ConnectionManager :=
  let cm := { cm with clientMessages := cm.clientMessages.alter c [] fun d => d ++ [now] }
  cm.updateActivity c now

/-- `CheckTimeouts`: the clients whose recorded activity is older than the timeout; a client
with no recorded activity is never reported. -/
def checkTimeouts (cm : ConnectionManager) (clients : List ClientInfo) (now : Int) :
    List Int :=
  clients.filterMap fun client =>
    match cm.lastActivity.find? client.id with
    | some t => if now - t > seconds cm.config.connectionTimeoutSeconds then some client.id
      else none
    | none => none

/-- `Mute`: a duration of `0` mutes for ever (the sentinel `time_point::max()`). -/
def mute (cm : ConnectionManager) (c : Int) (durationSeconds : Int) (now : Int) :
    ConnectionManager :=
  let expiry := if durationSeconds = 0 then timePointMax else now + seconds durationSeconds
  { cm with mutedClients := cm.mutedClients.set c expiry }

/-- `Unmute`. -/
def unmute (cm : ConnectionManager) (c : Int) : ConnectionManager :=
  { cm with mutedClients := cm.mutedClients.erase c }

/-- `OnConnect`. -/
def onConnect (cm : ConnectionManager) : ConnectionManager :=
  { cm with currentConnections := cm.currentConnections + 1 }

/-- The decrement of `OnDisconnect`: `current_connections--` on the atomic count. -/
def releaseConnection (cm : ConnectionManager) : ConnectionManager :=
  { cm with currentConnections := cm.currentConnections - 1 }

/-- `OnDisconnect` as one call: the decrement when the count is above zero. The test and the
decrement are two operations on the atomic count, with no lock around them. -/
def onDisconnect (cm : ConnectionManager) : ConnectionManager :=
  if cm.currentConnections > 0 then cm.releaseConnection else cm

/-! ## The connection count

Only `OnConnect` and `OnDisconnect` change `current_connections`; `AllowConnection` admits
only below `max_total_connections`. -/

@[simp] theorem allowConnection_currentConnections (cm : ConnectionManager) (ip : String)
    (now : Int) : (cm.allowConnection ip now).2.currentConnections = cm.currentConnections := by
  unfold allowConnection; dsimp only; split_ifs <;> rfl

theorem allowConnection_lt {cm : ConnectionManager} {ip : String} {now : Int}
    (h : (cm.allowConnection ip now).1 = true) :
    cm.currentConnections < cm.config.maxTotalConnections := by
  unfold allowConnection at h
  dsimp only at h
  split_ifs at h with h1 h2
  exact lt_of_not_ge h2

@[simp] theorem allowConnection_config (cm : ConnectionManager) (ip : String) (now : Int) :
    (cm.allowConnection ip now).2.config = cm.config := by
  unfold allowConnection; dsimp only; split_ifs <;> rfl

@[simp] theorem isMuted_currentConnections (cm : ConnectionManager) (c now : Int) :
    (cm.isMuted c now).2.currentConnections = cm.currentConnections := by
  unfold isMuted; split <;> (try split) <;> rfl

@[simp] theorem isMuted_config (cm : ConnectionManager) (c now : Int) :
    (cm.isMuted c now).2.config = cm.config := by
  unfold isMuted; split <;> (try split) <;> rfl

@[simp] theorem allowMessage_currentConnections (cm : ConnectionManager) (c now : Int) :
    (cm.allowMessage c now).2.currentConnections = cm.currentConnections := by
  unfold allowMessage; dsimp only; split <;> simp

@[simp] theorem allowMessage_config (cm : ConnectionManager) (c now : Int) :
    (cm.allowMessage c now).2.config = cm.config := by
  unfold allowMessage; dsimp only; split <;> simp

/-! ## The bans

Only `Ban` and `Unban` change `banned_ips`. -/

@[simp] theorem allowConnection_bannedIps (cm : ConnectionManager) (ip : String) (now : Int) :
    (cm.allowConnection ip now).2.bannedIps = cm.bannedIps := by
  unfold allowConnection; dsimp only; split_ifs <;> rfl

@[simp] theorem isMuted_bannedIps (cm : ConnectionManager) (c now : Int) :
    (cm.isMuted c now).2.bannedIps = cm.bannedIps := by
  unfold isMuted; split <;> (try split) <;> rfl

@[simp] theorem allowMessage_bannedIps (cm : ConnectionManager) (c now : Int) :
    (cm.allowMessage c now).2.bannedIps = cm.bannedIps := by
  unfold allowMessage; dsimp only; split <;> simp

@[simp] theorem recordMessage_bannedIps (cm : ConnectionManager) (c now : Int) :
    (cm.recordMessage c now).bannedIps = cm.bannedIps := rfl

@[simp] theorem mute_bannedIps (cm : ConnectionManager) (c d now : Int) :
    (cm.mute c d now).bannedIps = cm.bannedIps := rfl

@[simp] theorem onConnect_bannedIps (cm : ConnectionManager) :
    cm.onConnect.bannedIps = cm.bannedIps := rfl

@[simp] theorem onDisconnect_bannedIps (cm : ConnectionManager) :
    cm.onDisconnect.bannedIps = cm.bannedIps := by
  unfold onDisconnect; split <;> rfl

/-! ## Call sequences -/

/-- A call of a public method, with its arguments and its clock reading. -/
inductive Call where
  | allowConnection (ip : String) (now : Int)
  | allowMessage (c : Int) (now : Int)
  | recordMessage (c : Int) (now : Int)
  | isBanned (ip : String)
  | ban (ip : String)
  | unban (ip : String)
  | checkTimeouts (clients : List ClientInfo) (now : Int)
  | mute (c : Int) (durationSeconds : Int) (now : Int)
  | unmute (c : Int)
  | isMuted (c : Int) (now : Int)
  | updateActivity (c : Int) (now : Int)
  | onConnect
  | onDisconnect
  | getConnectionCount

/-- The clock reading of a call, for the methods that read the clock. -/
def Call.reading? : Call → Option Int
  | .allowConnection _ now | .allowMessage _ now | .recordMessage _ now
  | .checkTimeouts _ now | .mute _ _ now | .isMuted _ now | .updateActivity _ now => some now
  | _ => none

/-- What a call returns. -/
inductive Answer where
  | bool (b : Bool)
  | ids (l : List Int)
  | count (n : Int)
  | unit

/-- One call. -/
def exec (cm : ConnectionManager) : Call → Answer × ConnectionManager
  | .allowConnection ip now => Prod.map .bool id (cm.allowConnection ip now)
  | .allowMessage c now => Prod.map .bool id (cm.allowMessage c now)
  | .recordMessage c now => (.unit, cm.recordMessage c now)
  | .isBanned ip => (.bool (cm.isBanned ip), cm)
  | .ban ip => (.unit, cm.ban ip)
  | .unban ip => (.unit, cm.unban ip)
  | .checkTimeouts clients now => (.ids (cm.checkTimeouts clients now), cm)
  | .mute c d now => (.unit, cm.mute c d now)
  | .unmute c => (.unit, cm.unmute c)
  | .isMuted c now => Prod.map .bool id (cm.isMuted c now)
  | .updateActivity c now => (.unit, cm.updateActivity c now)
  | .onConnect => (.unit, cm.onConnect)
  | .onDisconnect => (.unit, cm.onDisconnect)
  | .getConnectionCount => (.count cm.currentConnections, cm)

/-- The answers of a sequence of calls, in order, and the final state. -/
def runCalls (cm : ConnectionManager) : List Call → List Answer × ConnectionManager
  | [] => ([], cm)
  | call :: calls =>
    let r := runCalls (cm.exec call).2 calls
    ((cm.exec call).1 :: r.1, r.2)

end ConnectionManager

end ChatServer
