import ChatServer.Spec.Basic
import Mathlib.Data.List.Infix

/-!
# The message store

`MessageStore` of `message_store.h` / `message_store.cpp`: a bounded queue of recent messages
per room, and an append-only log file named for the local date, rotated by size.

The environment is explicit. `localTime` is the conversion `w32::LocalTime` of a
`system_clock` reading (in seconds, as `to_time_t` gives it) to a broken-down local time; the
file system is the size of every file before the run, the log of every append made during
the run, which paths `log_file.open` can open, and which `CreateFileA` can open to read the
size. A call that reads `system_clock::now()` takes the reading as its argument `now`.

Texts are byte strings: each character stands for one byte (its code is below `256`), so
`String.length` is `size()`. `log_file` is opened in text mode, so what reaches the disk is
the line with every `'\n'` written as `"\r\n"` (`textMode`), while `WriteToFile` counts the
line's own bytes. `GetFileSize(h, NULL)` returns the low `DWORD` of the size.

`Flush` and the destructor are not modelled: the file contents here are the logical
contents, buffered bytes included.
-/

namespace ChatServer

/-- `std::tm`, as `localtime` fills it. -/
structure Tm where
  tmYear : Int
  tmMon : Int
  tmMday : Int
  tmHour : Int
  tmMin : Int
  tmSec : Int
  deriving DecidableEq, Repr

/-- A two-digit, zero-padded field of `std::put_time`. -/
def pad2 (n : Int) : String := if 0 ≤ n ∧ n < 10 then "0" ++ toString n else toString n

/-- `std::put_time(&tm, fmt)` for the conversions the source uses. -/
def putTime (tm : Tm) : List Char → String
  | '%' :: 'Y' :: rest => toString (tm.tmYear + 1900) ++ putTime tm rest
  | '%' :: 'm' :: rest => pad2 (tm.tmMon + 1) ++ putTime tm rest
  | '%' :: 'd' :: rest => pad2 tm.tmMday ++ putTime tm rest
  | '%' :: 'H' :: rest => pad2 tm.tmHour ++ putTime tm rest
  | '%' :: 'M' :: rest => pad2 tm.tmMin ++ putTime tm rest
  | '%' :: 'S' :: rest => pad2 tm.tmSec ++ putTime tm rest
  | c :: rest => c.toString ++ putTime tm rest
  | [] => ""

/-- A chat message record (`struct ChatMessage`); the timestamp is a `system_clock` reading
in seconds. -/
structure ChatMessage where
  senderId : Int
  senderName : String
  room : String
  content : String
  timestamp : Int
  deriving DecidableEq, Repr

/-- `ChatMessage::GetTimestampString`. -/
def ChatMessage.getTimestampString (localTime : Int → Tm) (m : ChatMessage) : String :=
  putTime (localTime m.timestamp) "%Y-%m-%d %H:%M:%S".toList

/-- `ChatMessage::ToString`: `[YYYY-MM-DD HH:MM:SS] [#room] sender: content`. -/
def ChatMessage.toString (localTime : Int → Tm) (m : ChatMessage) : String :=
  "[" ++ m.getTimestampString localTime ++ "] " ++ "[#" ++ m.room ++ "] " ++
    m.senderName ++ ": " ++ m.content

/-- The files the store writes to. -/
structure FileSystem where
  initialSize : String → Nat
  appended : List (String × String)
  canOpen : String → Bool
  canRead : String → Bool

/-- The size of a file: its size before the run and every text appended to it since. -/
def FileSystem.size (fs : FileSystem) (path : String) : Nat :=
  fs.initialSize path + ((fs.appended.filter fun a => a.1 = path).map fun a => a.2.length).sum

/-- Append a text to a file. -/
def FileSystem.append (fs : FileSystem) (path text : String) : FileSystem :=
  { fs with appended := fs.appended ++ [(path, text)] }

@[simp] theorem FileSystem.canOpen_append (fs : FileSystem) (path text : String) :
    (fs.append path text).canOpen = fs.canOpen := rfl

@[simp] theorem FileSystem.canRead_append (fs : FileSystem) (path text : String) :
    (fs.append path text).canRead = fs.canRead := rfl

/-- `GetFileSize(h, NULL)`: the low `DWORD` of the file's size. -/
def FileSystem.getFileSize (fs : FileSystem) (path : String) : Nat := fs.size path % 2 ^ 32

/-- What a text-mode `std::ofstream` writes for a string: each `'\n'` as `"\r\n"`. -/
def textMode (text : String) : String :=
  ⟨text.toList.flatMap fun ch => if ch = '\n' then ['\r', '\n'] else [ch]⟩

/-- `MessageStore::Config`, with its defaults. -/
structure MSConfig where
  maxMessagesPerRoom : Nat := 100
  maxFileSizeMb : Nat := 10
  logDirectory : String := "./chat_logs"
  enablePersistence : Bool := true
  deriving DecidableEq, Repr

/-- The state of a `MessageStore`: the cache, the path open in `log_file` (`none` when it is
closed), the byte counter, and the file system. -/
structure MessageStore where
  config : MSConfig
  roomMessages : UnorderedMap String (List ChatMessage)
  logFile : Option String
  currentFileSize : Nat
  fs : FileSystem

namespace MessageStore

variable (localTime : Int → Tm)

/-- The path `OpenLogFile` builds: `<log_directory>\chat_<YYYYMMDD>.log`. -/
def logFileName (cfg : MSConfig) (tm : Tm) : String :=
  cfg.logDirectory ++ "\\chat_" ++ putTime tm "%Y%m%d".toList ++ ".log"

/-- `OpenLogFile`: open the file of the current local date for append and reload its size
with `CreateFileA` and `GetFileSize` (the counter is left as it was when `CreateFileA` fails);
when the file cannot be opened, persistence is switched off. -/
def openLogFile (s : MessageStore) (now : Int) : MessageStore :=
  let filename := logFileName s.config (localTime now)
  if s.fs.canOpen filename then
    { s with
      logFile := some filename
      currentFileSize :=
        if s.fs.canRead filename then s.fs.getFileSize filename else s.currentFileSize }
  else { s with config := { s.config with enablePersistence := false } }

/-- The constructor `MessageStore(config)` (creating the directory is not modelled). -/
def new (config : MSConfig) (fs : FileSystem) (now : Int) : MessageStore :=
  let s : MessageStore :=
    { config, roomMessages := .empty, logFile := none, currentFileSize := 0, fs }
  if config.enablePersistence then s.openLogFile localTime now else s

/-- `RotateLogFile`: close, reset the counter, open again. -/
def rotateLogFile (s : MessageStore) (now : Int) : MessageStore :=
  ({ s with logFile := none, currentFileSize := 0 }).openLogFile localTime now

/-- `WriteToFile`: append the line through the text-mode stream, count the line's bytes,
rotate once the counter reaches `max_file_size_mb * 1024 * 1024`. -/
def writeToFile (s : MessageStore) (message : ChatMessage) (now : Int) : MessageStore :=
  match s.logFile with
  | none => s
  | some path =>
    let line := message.toString localTime ++ "\n"
    let s := { s with
      fs := s.fs.append path (textMode line), currentFileSize := s.currentFileSize + line.length }
    if s.currentFileSize ≥ s.config.maxFileSizeMb * 1024 * 1024 then
      s.rotateLogFile localTime now
    else s

/-- `while (messages.size() > max) messages.pop_front();` -/
def trimFront (max : Nat) : List ChatMessage → List ChatMessage
  | [] => []
  | m :: rest => if (m :: rest).length > max then trimFront max rest else m :: rest

/-- `Store`: append to the room's queue (`room_messages[room]` creates it), trim it, and write
the log line when persistence is on. -/
def store (s : MessageStore) (message : ChatMessage) (now : Int) : MessageStore :=
  let trim := fun msgs => trimFront s.config.maxMessagesPerRoom (msgs ++ [message])
  let s := { s with roomMessages := s.roomMessages.alter message.room [] trim }
  if s.config.enablePersistence then s.writeToFile localTime message now else s

/-- `Store` for each message in turn, with the reading of each call. -/
def storeAll (s : MessageStore) (writes : List (ChatMessage × Int)) : MessageStore :=
  writes.foldl (fun s w => s.store localTime w.1 w.2) s

/-- `GetRecent`: the last `count` messages of the room, oldest first. -/
def getRecent (s : MessageStore) (room : String) (count : Nat) : List ChatMessage :=
  match s.roomMessages.find? room with
  | none => []
  | some msgs => msgs.drop (if msgs.length > count then msgs.length - count else 0)

/-- The inner loop of `GetBySender` over one queue: `Sum.inl` is the early return. -/
def getBySenderQueue (senderId : Int) (count : Nat) :
    List ChatMessage → List ChatMessage → List ChatMessage ⊕ List ChatMessage
  | [], result => .inr result
  | msg :: msgs, result =>
    if msg.senderId = senderId then
      let result := result ++ [msg]
      if result.length ≥ count then .inl result else getBySenderQueue senderId count msgs result
    else getBySenderQueue senderId count msgs result

/-- The outer loop of `GetBySender` over the rooms. -/
def getBySenderRooms (senderId : Int) (count : Nat) :
    List (String × List ChatMessage) → List ChatMessage → List ChatMessage
  | [], result => result
  | (_, msgs) :: rooms, result =>
    match getBySenderQueue senderId count msgs result with
    | .inl done => done
    | .inr result => getBySenderRooms senderId count rooms result

/-- `GetBySender`: up to `count` messages of the sender, rooms in iteration order, then queue
order. -/
def getBySender (s : MessageStore) (senderId : Int) (count : Nat) : List ChatMessage :=
  getBySenderRooms senderId count s.roomMessages.entries []

/-- `lower_content.find(lower_query) != npos`, both lowered with the C `tolower`. -/
def matchesQuery (lowerQuery : String) (msg : ChatMessage) : Bool :=
  decide (lowerQuery.toList <:+: msg.content.toLower.toList)

/-- The lambda `search_in_room`: stop as soon as `max_results` are found. -/
def searchInRoom (lowerQuery : String) (maxResults : Nat) :
    List ChatMessage → List ChatMessage → List ChatMessage
  | [], result => result
  | msg :: msgs, result =>
    if result.length ≥ maxResults then result
    else
      searchInRoom lowerQuery maxResults msgs
        (if matchesQuery lowerQuery msg then result ++ [msg] else result)

/-- The loop of `Search` over all rooms, with its check after each room. -/
def searchRooms (lowerQuery : String) (maxResults : Nat) :
    List (String × List ChatMessage) → List ChatMessage → List ChatMessage
  | [], result => result
  | (_, msgs) :: rooms, result =>
    let result := searchInRoom lowerQuery maxResults msgs result
    if result.length ≥ maxResults then result else searchRooms lowerQuery maxResults rooms result

/-- `Search`: in one room, or in every room when `room` is empty. -/
def search (s : MessageStore) (query room : String) (maxResults : Nat) : List ChatMessage :=
  let lowerQuery := query.toLower
  if room ≠ "" then
    match s.roomMessages.find? room with
    | some msgs => searchInRoom lowerQuery maxResults msgs []
    | none => []
  else searchRooms lowerQuery maxResults s.roomMessages.entries []

/-- `GetTotalCount`. -/
def getTotalCount (s : MessageStore) : Nat := (s.roomMessages.entries.map fun p => p.2.length).sum

/-- `Clear`: one room, or every room when `room` is empty. -/
def clear (s : MessageStore) (room : String) : MessageStore :=
  if room = "" then { s with roomMessages := .empty }
  else { s with roomMessages := s.roomMessages.erase room }

/-- A call that changes the cache: `Store` with its clock reading, or `Clear` (`Clear()` is
`Clear("")`). -/
inductive Op where
  | store (message : ChatMessage) (now : Int)
  | clear (room : String)

/-- One call. -/
def apply (s : MessageStore) : Op → MessageStore
  | .store message now => s.store localTime message now
  | .clear room => s.clear room

/-- The state after a sequence of calls. -/
def run (s : MessageStore) (ops : List Op) : MessageStore := ops.foldl (apply localTime) s

end MessageStore

end ChatServer
