import ChatServer.Spec.Basic

/-!
# Socket utilities

The declarations of `sockutil.h` that the server reads: the client record `CLIENT_INFO`, the
operation tags of `PER_IO_DATA`, and `GetSocketAddress` of `sockutil.cpp`. A socket handle is a
number; the peer address of an accepted socket is what `getpeername` reports while the socket
is open.
-/

namespace ChatServer

/-- `enum class ClientState`. -/
inductive ClientState where
  | disconnected
  | connected
  | authenticated
  deriving DecidableEq, Repr

/-- `enum class IOOperation`. -/
inductive IOOperation where
  | read
  | write
  | accept
  deriving DecidableEq, Repr

/-- A `SOCKET` handle. -/
abbrev Socket := Nat

/-- A peer address as `getpeername` reports it: the dotted IPv4 text and the port. -/
structure SockAddr where
  ip : String
  port : Nat
  deriving DecidableEq, Repr

/-- `GetSocketAddress`: `ip:port` when `getpeername` succeeds (`some` address), `unknown`
otherwise. -/
def getSocketAddress : Option SockAddr → String
  | some a => a.ip ++ ":" ++ toString a.port
  | none => "unknown"

/-- `struct CLIENT_INFO`. -/
structure ClientInfo where
  id : Int
  socket : Socket
  name : String
  ipAddress : String
  state : ClientState
  connectedAt : Int
  lastActivity : Int
  messageCount : Int
  currentRoom : String
  deriving DecidableEq, Repr

end ChatServer
