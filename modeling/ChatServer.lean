import ChatServer.Spec.Basic
import ChatServer.Spec.ChatRoom
import ChatServer.Spec.SockUtil
import ChatServer.Spec.ConnectionManager
import ChatServer.Spec.MessageStore
import ChatServer.Spec.ThreadPool
import ChatServer.Spec.IOCPServer
import ChatServer.Spec.Server
import ChatServer.Spec.System
import ChatServer.Proof.Membership
import ChatServer.Proof.Window
import ChatServer.Proof.RateLimit
import ChatServer.Proof.LogRotation
import ChatServer.Proof.Transport
import ChatServer.Proof.Handlers
import ChatServer.Proof.Lifecycle
import ChatServer.Proof.Disconnect
import ChatServer.Proof.Admission
import ChatServer.Proof.Ordering
import ChatServer.Proof.Registration
import ChatServer.Proof.Ban
import ChatServer.Proof.Outbound
import ChatServer.Proof.Queries
import ChatServer.Proof.Mute
import ChatServer.Proof.Pool
import ChatServer.Proof.Activity
import ChatServer.Proof.Names
import ChatServer.Proof.Welcome
import ChatServer.Proof.Progress
import ChatServer.Proof.Kick
import ChatServer.Proof.History
import ChatServer.Proof.Sockets
import ChatServer.Proof.Delivery
import ChatServer.Proof.Persistence
import ChatServer.Proof.Moderation
