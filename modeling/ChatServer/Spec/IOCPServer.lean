import ChatServer.Spec.SockUtil
import ChatServer.Spec.ThreadPool

/-!
# The completion-port transport

`IOCPServer` of `iocp_server.h` / `iocp_server.cpp`. The accept thread registers each
accepted socket under a fresh id, enqueues `on_connect` on the pool and posts an overlapped
read; the completion workers take finished operations from the port: a read that brought
bytes enqueues `on_message` and is posted again, a read or write that failed or brought no
bytes cleans the client up, which enqueues `on_disconnect`.

Each function here runs as one step: the accept thread's `accept()` with the association of
the socket with the port, the rest of its `HandleAccept`, one iteration of `IOCPWorkerThread`
for one completed operation, and the methods the dispatcher calls. Between the first two the
accept thread holds the socket (`acceptor`): `Stop` does not wait for the detached accept
thread, so a socket it holds is registered after `Stop` has cleared the table. The operating
system's part is explicit: `peers` holds the sockets that are open, each with the address
`getpeername` reports, and the outcomes of every `WSARecv` and `WSASend` are choices of the
environment (`recvPending`, `sendPending`), except that they always fail on a closed socket.
A socket handle is a number that a later `accept` may reuse once it is closed. Data are byte
strings: each character stands for one byte.

`received` is a history kept for the statements: the chunks `HandleRead` received, in order,
with their client. No function of the source reads it.

Not modelled: the listen socket and the completion-port handle (their only role is to stop
the accept thread and the completion workers, which `stop` does), `Broadcast` (the server
never calls it), and the `OVERLAPPED` header of an operation.
-/

namespace ChatServer

/-- `PER_IO_DATA` without its `OVERLAPPED` header: the operation, its client and socket, the
bytes written into `buffer`, and `wsa_buf.len`. -/
structure PerIoData where
  operation : IOOperation
  clientId : Int
  socket : Socket
  buffer : String
  wsaBufLen : Int
  deriving DecidableEq, Repr

/-- The closures `IOCPServer` enqueues on the pool. -/
inductive Task where
  | onConnect (c : Int) (socket : Socket)
  | onMessage (c : Int) (message : String)
  | onDisconnect (c : Int)
  deriving DecidableEq, Repr

/-- The client a task is for. -/
def Task.clientId : Task → Int
  | .onConnect c _ | .onMessage c _ | .onDisconnect c => c

/-- What `GetQueuedCompletionStatus` reports for a finished operation: success with the bytes
transferred (for a read the bytes received; for a write only their number counts), or
failure. -/
inductive Completion where
  | ok (bytes : String)
  | failed
  deriving DecidableEq, Repr

/-- A byte string: every character stands for one byte. -/
def isBytes (data : String) : Bool := data.toList.all fun ch => ch.toNat < 256

/-- What the port can report: a read brings bytes. -/
def Completion.isBytes : Completion → Bool
  | .ok bytes => ChatServer.isBytes bytes
  | .failed => true

/-- The state of the transport: the client table and `socket_to_id` under `clients_mutex`,
the operations posted and not yet completed, the pool it enqueues on, the socket the accept
thread holds between `accept()` and the end of `HandleAccept`, and the open sockets of the
operating system. -/
structure IOCPServer where
  running : Bool
  nextClientId : Int
  clients : UnorderedMap Int ClientInfo
  socketToId : UnorderedMap Socket Int
  pending : List PerIoData
  threadPool : ThreadPool Task
  acceptor : Option Socket
  peers : UnorderedMap Socket SockAddr
  received : List (Int × String)

namespace IOCPServer

/-- The server after a successful `Start`: `next_client_id` starts at `1`. -/
def start (pool : ThreadPool Task) : IOCPServer :=
  { running := true, nextClientId := 1, clients := .empty, socketToId := .empty, pending := [],
    threadPool := pool, acceptor := none, peers := .empty, received := [] }

/-- `closesocket`: the handle is released. -/
def closeSocket (s : IOCPServer) (sock : Socket) : IOCPServer :=
  { s with peers := s.peers.erase sock }

/-- `GetSocketAddress(sock)`: `getpeername` succeeds while the socket is open. -/
def socketAddress (s : IOCPServer) (sock : Socket) : String :=
  getSocketAddress (s.peers.find? sock)

/-- `thread_pool.enqueue(task)`. -/
def enqueue (s : IOCPServer) (t : Task) : IOCPServer :=
  { s with threadPool := s.threadPool.enqueue t }

/-- `CleanupClient`: remove the client and close its socket when it is registered, then
enqueue `on_disconnect` whether it was or not. -/
def cleanupClient (s : IOCPServer) (c : Int) : IOCPServer :=
  let s := match s.clients.find? c with
    | some info =>
      ({ s with socketToId := s.socketToId.erase info.socket, clients := s.clients.erase c }
        ).closeSocket info.socket
    | none => s
  s.enqueue (.onDisconnect c)

@[simp] theorem cleanupClient_running (s : IOCPServer) (c : Int) :
    (s.cleanupClient c).running = s.running := by
  unfold cleanupClient; split <;> rfl

@[simp] theorem cleanupClient_nextClientId (s : IOCPServer) (c : Int) :
    (s.cleanupClient c).nextClientId = s.nextClientId := by
  unfold cleanupClient; split <;> rfl

@[simp] theorem cleanupClient_pending (s : IOCPServer) (c : Int) :
    (s.cleanupClient c).pending = s.pending := by
  unfold cleanupClient; split <;> rfl

@[simp] theorem cleanupClient_acceptor (s : IOCPServer) (c : Int) :
    (s.cleanupClient c).acceptor = s.acceptor := by
  unfold cleanupClient; split <;> rfl

@[simp] theorem cleanupClient_received (s : IOCPServer) (c : Int) :
    (s.cleanupClient c).received = s.received := by
  unfold cleanupClient; split <;> rfl

@[simp] theorem cleanupClient_threadPool (s : IOCPServer) (c : Int) :
    (s.cleanupClient c).threadPool = s.threadPool.enqueue (.onDisconnect c) := by
  unfold cleanupClient; split <;> rfl

@[simp] theorem cleanupClient_find? (s : IOCPServer) (c c' : Int) :
    (s.cleanupClient c).clients.find? c' = if c' = c then none else s.clients.find? c' := by
  unfold cleanupClient
  split
  · simp [enqueue, closeSocket]
  · rename_i h
    by_cases hc : c' = c
    · subst hc; simp [enqueue, h]
    · simp [enqueue, hc]

/-- `DisconnectClient`. -/
def disconnectClient (s : IOCPServer) (c : Int) : IOCPServer := s.cleanupClient c

/-- `PostRead`: reset the buffer and post `WSARecv` on the operation's socket. The read
becomes outstanding when the socket is open and the call succeeds; otherwise the client is
cleaned up and the operation freed. -/
def postRead (s : IOCPServer) (io : PerIoData) (recvPending : Bool) : IOCPServer :=
  if (s.peers.find? io.socket).isSome && recvPending then
    { s with pending := s.pending ++ [{ io with buffer := "", wsaBufLen := maxLen }] }
  else s.cleanupClient io.clientId

/-- The operation `HandleAccept` posts first. -/
def readOp (c : Int) (sock : Socket) : PerIoData :=
  { operation := .read, clientId := c, socket := sock, buffer := "", wsaBufLen := maxLen }

/-- `accept()` returns the socket `sock` of a connection from `peer`, and `HandleAccept`
associates it with the port: on success the accept thread holds it for the rest of
`HandleAccept`, otherwise it closes it. -/
def acceptSocket (s : IOCPServer) (sock : Socket) (peer : SockAddr) (associated : Bool) :
    IOCPServer :=
  let s := { s with peers := s.peers.set sock peer }
  if associated then { s with acceptor := some sock } else s.closeSocket sock

/-- The rest of `HandleAccept` for the socket `sock` the accept thread holds, with the
steady-clock reading `now`: the client is registered under the next id, `on_connect` is
enqueued and the first read is posted. -/
def handleAccept (s : IOCPServer) (sock : Socket) (recvPending : Bool) (now : Int) :
    IOCPServer :=
  let c := s.nextClientId
  let info : ClientInfo :=
    { id := c, socket := sock, name := "anonymous", ipAddress := s.socketAddress sock,
      state := .connected, connectedAt := now, lastActivity := now, messageCount := 0,
      currentRoom := "general" }
  let s := { s with
    acceptor := none, nextClientId := c + 1, clients := s.clients.set c info,
    socketToId := s.socketToId.set sock c }
  (s.enqueue (.onConnect c sock)).postRead (readOp c sock) recvPending

/-- `HandleRead` of a read that brought `bytes`: refresh the client's activity, enqueue
`on_message` with the bytes, post the read again. -/
def handleRead (s : IOCPServer) (io : PerIoData) (bytes : String) (recvPending : Bool)
    (now : Int) : IOCPServer :=
  let s := { s with
    clients := s.clients.modify io.clientId fun info =>
      { info with lastActivity := now, messageCount := info.messageCount + 1 } }
  let s := if bytes.length > 0 then
      { s.enqueue (.onMessage io.clientId bytes) with received := s.received ++ [(io.clientId, bytes)] }
    else s
  s.postRead io recvPending

/-- One iteration of `IOCPWorkerThread` for an operation taken from the port (and so no
longer outstanding). A failure, or a read or write of no bytes, cleans the client up; a read
goes to `HandleRead`; `HandleWrite` only frees the operation. -/
def complete (s : IOCPServer) (io : PerIoData) (r : Completion) (recvPending : Bool)
    (now : Int) : IOCPServer :=
  match r with
  | .failed => s.cleanupClient io.clientId
  | .ok bytes =>
    if bytes.length = 0 ∧ io.operation ≠ .accept then s.cleanupClient io.clientId
    else
      match io.operation with
      | .read => s.handleRead io bytes recvPending now
      | .write => s
      | .accept => s

/-- `Stop`: the completion workers exit, every client socket is closed and both tables are
cleared. No `on_disconnect` is enqueued, and the socket the accept thread holds stays open. -/
def stop (s : IOCPServer) : IOCPServer :=
  if !s.running then s
  else
    { s with
      running := false, clients := .empty, socketToId := .empty
      peers := s.clients.entries.foldl (fun peers p => peers.erase p.2.socket) s.peers }

/-- The operation `PostWrite` builds: at most `MAX_LEN` bytes of the data copied into the
buffer, and `wsa_buf.len` set to the full length. -/
def writeOp (c : Int) (sock : Socket) (data : String) (length : Int) : PerIoData :=
  { operation := .write, clientId := c, socket := sock,
    buffer := ⟨data.toList.take (min length maxLen).toNat⟩, wsaBufLen := length }

/-- `PostWrite`: build the operation for the client's socket and post `WSASend`. The write
becomes outstanding when the socket is open and the call does not fail at once
(`sendPending`); otherwise the operation is freed and nothing is posted. -/
def postWrite (s : IOCPServer) (c : Int) (data : String) (length : Int) (sendPending : Bool) :
    IOCPServer :=
  match s.clients.find? c with
  | none => s
  | some info =>
    if (s.peers.find? info.socket).isSome && sendPending then
      { s with pending := s.pending ++ [writeOp c info.socket data length] }
    else s

/-- `Send`: `false` for a client that is not registered, otherwise `PostWrite`. -/
def send (s : IOCPServer) (c : Int) (message : String) (length : Int) (sendPending : Bool) :
    Bool × IOCPServer :=
  match s.clients.find? c with
  | none => (false, s)
  | some _ => (true, s.postWrite c message length sendPending)

/-- `GetClient`. -/
def getClient (s : IOCPServer) (c : Int) : Option ClientInfo := s.clients.find? c

/-- `GetAllClients`, in the table's iteration order. -/
def getAllClients (s : IOCPServer) : List ClientInfo := s.clients.entries.map Prod.snd

end IOCPServer

end ChatServer
