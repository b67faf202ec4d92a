import ChatServer.Proof.Lifecycle

/-!
# The order of a client's handlers

The pool's workers take tasks in the order they were queued; `HandleAccept` queues
`on_connect` before it posts the first read, and `HandleRead` queues each chunk as it
arrives. So the tasks of a client start in order: its `on_connect` before any of its
`on_message`, and the `on_message` tasks in the order their chunks arrived. Nothing more is
serialised: each callback is a task of its own, so two workers run two tasks of one client at
once, and a read that completes after `DisconnectClient` queues an `on_message` behind the
`on_disconnect`. With one worker no two handlers overlap. Each id gets one `on_connect`.
-/

namespace ChatServer

theorem ConnectFirst.of_prefix {l l' : List Task} (h : ConnectFirst l) (hp : l' <+: l) :
    ConnectFirst l' := by
  intro c m pre post he
  obtain ⟨t, rfl⟩ := hp
  exact h c m pre (post ++ t) (by rw [he, List.append_assoc, List.cons_append])

namespace System

variable {s : System}

/-- The tasks started so far put every `on_message` of a client after its `on_connect`. -/
theorem Inv.started_connect_first (h : s.Inv) : ConnectFirst s.server.threadPool.started :=
  h.server.connect_first.of_prefix (List.prefix_append _ _)

/-- The chunks of the started `on_message` tasks of a client are the first chunks received
for it, in order. -/
theorem Inv.started_messages (h : s.Inv) (c : Int) :
    s.server.threadPool.started.filterMap (Task.messageOf c) <+:
      receivedOf c s.server.received :=
  h.server.messages c ▸ (List.prefix_append _ _).filterMap _

theorem workers_length_init (lt : Int → Tm) (conn : CMConfig) (processors : Nat) (fs : FileSystem)
    (wall : Int) : (init lt conn 1 processors fs wall).server.threadPool.workers.length = 1 := rfl

/-- A client connects and sends a chunk, and two workers take its `on_connect` and its
`on_message`. -/
def chatDuringConnect : List Action :=
  [.accept 1 ⟨"10.0.0.1", 5000⟩ true, .register true 0, .complete 0 (.ok "hi\n") true 0, .take 0, .take 1]

/-- The `exit` command runs, then the read posted after it completes with more data. -/
def chunkAfterExit : List Action :=
  [.accept 1 ⟨"10.0.0.1", 5000⟩ true, .register true 0, .complete 0 (.ok "\x23exit\n") true 0, .take 0,
    .finish 0 ⟨0, 0⟩ [], .take 0, .finish 0 ⟨0, 0⟩ [], .complete 0 (.ok "more\n") true 0]

theorem handlers_overlap_or_follow_disconnect :
    (∃ s, (init noonClock mainConnConfig 2 2 emptyDisk 0).run noonClock chatDuringConnect = some s ∧
      s.server.threadPool.workers = [some (.onConnect 1 1), some (.onMessage 1 "hi\n")]) ∧
    ∃ s, boot.run noonClock chunkAfterExit = some s ∧
      s.server.threadPool.tasks = [.onDisconnect 1, .onMessage 1 "more\n", .onDisconnect 1] :=
  ⟨⟨_, (Option.some_get (by decide)).symm, by decide⟩,
    _, (Option.some_get (by decide)).symm, by decide⟩

/-- **The tasks of a client start in order** in every run: its `on_connect` before any of its
`on_message`, and its `on_message` tasks in the order `HandleRead` received the chunks. With
one worker, at most one handler runs at a time. -/
theorem client_tasks_in_order {lt : Int → Tm} {conn : CMConfig} {poolSize processors : Nat}
    {fs : FileSystem} {wall : Int} {acts : List Action}
    (hr : (init lt conn poolSize processors fs wall).run lt acts = some s) (c : Int) :
    (∀ m pre post, s.server.threadPool.started = pre ++ .onMessage c m :: post →
      ∃ sk, .onConnect c sk ∈ pre) ∧
    s.server.threadPool.started.filterMap (Task.messageOf c) <+: receivedOf c s.server.received ∧
    (poolSize = 1 → s.server.threadPool.running.length ≤ 1) := by
  have h := (inv_init lt conn poolSize processors fs wall).run hr
  refine ⟨h.started_connect_first c, h.started_messages c, fun hp => ?_⟩
  subst hp
  calc s.server.threadPool.running.length
      ≤ s.server.threadPool.workers.length := List.length_filterMap_le _ _
    _ = 1 := (run_grows hr).workers.trans (workers_length_init lt conn processors fs wall)

/-- A client connects and sends a chunk, and the worker takes its `on_connect`. -/
def chatOnce : List Action :=
  [.accept 1 ⟨"10.0.0.1", 5000⟩ true, .register true 0, .complete 0 (.ok "hi\n") true 0, .take 0]

theorem client_tasks_in_order_chat :
    ∃ s, boot.run noonClock chatOnce = some s ∧
      (∀ m pre post, s.server.threadPool.started = pre ++ .onMessage 1 m :: post →
        ∃ sk, .onConnect 1 sk ∈ pre) ∧
      s.server.threadPool.started.filterMap (Task.messageOf 1) <+: receivedOf 1 s.server.received ∧
      (1 = 1 → s.server.threadPool.running.length ≤ 1) :=
  have hr : boot.run noonClock chatOnce = some _ := (Option.some_get (by decide)).symm
  ⟨_, hr, client_tasks_in_order hr 1⟩

/-- Two clients connect and both `on_connect` tasks run. -/
def twoClients : List Action :=
  [.accept 1 ⟨"10.0.0.1", 5000⟩ true, .register true 0, .accept 2 ⟨"10.0.0.2", 5000⟩ true, .register true 0,
    .take 0, .finish 0 ⟨0, 0⟩ [], .take 0, .finish 0 ⟨0, 0⟩ []]

end System

end ChatServer
