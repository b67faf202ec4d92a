import ChatServer.Proof.Lifecycle

/-!
# Disconnect callbacks

`CleanupClient` removes a client from the table, closes its socket and queues
`on_disconnect`, and every path that ends a client while the server runs goes through it: a
failed or empty read, a failed `WSARecv`, and `DisconnectClient`. It queues the callback also
for a client that is no longer in the table, so a `DisconnectClient` followed by the failure
of the read posted before it queues it twice (`disconnect_callback_twice_or_never`). `Stop` is
not such a path: it closes the sockets and clears the table without the callback, so a client
still connected at `Stop` never gets it.

After `Stop` the completion workers are gone and the listen socket is closed, but the
detached accept thread may hold a socket it accepted before (`stop_freezes_transport`). If it
holds none, the client table is empty and stays so: `Send` finds no client, and
`CleanupClient` finds none to remove; only the pool moves: the queued handlers run (until the
teardown, after which they crash), and what they send is dropped. If it holds one, the rest of
`HandleAccept` registers it after `Stop` under the next id, and that client is the only one the
table can hold.
-/

namespace ChatServer.System

/-- The client sends the `exit` command, then the read posted after the chunk fails when the
socket closes. -/
def exitThenReadFails : List Action :=
  [.accept 1 ⟨"10.0.0.1", 5000⟩ true, .register true 0, .take 0, .finish 0 ⟨0, 0⟩ [],
    .complete 0 (.ok "\x23exit\n") true 0, .take 0, .finish 0 ⟨0, 0⟩ [], .complete 1 .failed true 0]

/-- A client is accepted, then the server stops and the pool drains. -/
def stopWithClient : List Action :=
  [.accept 1 ⟨"10.0.0.1", 5000⟩ true, .register true 0, .stop, .take 0, .finish 0 ⟨0, 0⟩ []]

theorem disconnect_callback_twice_or_never :
    (∃ s, boot.run noonClock exitThenReadFails = some s ∧
      s.server.threadPool.tasks = [.onDisconnect 1, .onDisconnect 1]) ∧
    ∃ s, boot.run noonClock stopWithClient = some s ∧ s.server.running = false ∧
      s.server.nextClientId = 2 ∧ s.server.threadPool.Drained ∧
      Task.onDisconnect 1 ∉ s.server.threadPool.started :=
  ⟨⟨_, (Option.some_get (by decide)).symm, by decide⟩,
    _, (Option.some_get (by decide)).symm, by decide, by decide, by decide, by decide⟩

end ChatServer.System

/-! ## After `Stop` -/

namespace ChatServer.IOCPServer

/-- `s'` is `s` with another pool. -/
def PoolOnly (s s' : IOCPServer) : Prop := s' = { s with threadPool := s'.threadPool }

theorem PoolOnly.trans {s₁ s₂ s₃ : IOCPServer} (h₁ : s₁.PoolOnly s₂) (h₂ : s₂.PoolOnly s₃) :
    s₁.PoolOnly s₃ := by
  unfold PoolOnly at *
  rw [h₂, h₁]

/-- With no client registered, a handler's effects only queue tasks. -/
theorem applyAll_poolOnly {s : IOCPServer} (h : ∀ c, s.clients.find? c = none)
    (effs : List Effect) (sent : List Bool) : s.PoolOnly (s.applyAll effs sent) := by
  induction effs generalizing s sent with
  | nil => rfl
  | cons e effs ih =>
    have he : s.PoolOnly (Effect.apply s (sent.headD true) e) := by
      cases e with
      | send c m => simp [PoolOnly, Effect.apply, send, h]
      | disconnect c => simp [PoolOnly, Effect.apply, disconnectClient, cleanupClient, h, enqueue]
    exact he.trans (ih (fun c => by rw [he]; exact h c) _)

end ChatServer.IOCPServer

namespace ChatServer.System

variable {localTime : Int → Tm} {s s' : System}

/-- On a stopped server with no client registered and no socket held by the accept thread,
a step only moves the pool. -/
theorem step_poolOnly (hrun : s.server.running = false) (hcl : ∀ c, s.server.clients.find? c = none)
    (hacc : s.server.acceptor = none) {a : Action} (hs : s.step localTime a = some s') :
    s.server.PoolOnly s'.server := by
  obtain ⟨-, hcase⟩ := step_cases hs
  rcases hcase with ⟨_, _, _, hr, -⟩ | ⟨_, _, _, ha, -⟩ | ⟨_, _, _, _, _, _, hr, -⟩ |
    ⟨-, -, -, rfl⟩ | ⟨-, -, -, -, -, -, -, -, -, rfl⟩ | ⟨-, -, -, -, p, -, -, rfl⟩ | ⟨-, hr, -⟩ |
    rfl | ⟨-, -, rfl⟩ | ⟨-, rfl⟩
  · simp [hrun] at hr
  · simp [hacc] at ha
  · simp [hrun] at hr
  · rfl
  · rfl
  · exact (show s.server.PoolOnly { s.server with threadPool := p } from rfl).trans
      (IOCPServer.applyAll_poolOnly (s := { s.server with threadPool := p }) hcl _ _)
  · simp [hrun] at hr
  · show s.server.stop = { s.server with threadPool := s.server.stop.threadPool }
    rw [show s.server.stop = s.server by simp [IOCPServer.stop, hrun]]
  · rfl
  · rfl

/-- Once stopped, the server holds no client but the one the accept thread registers under
the next id with the socket it holds, and holds no socket it did not hold. -/
theorem step_late_client {sock : Socket} {n : Int}
    (hinv : s.server.running = false ∧ (∀ c info, s.server.clients.find? c = some info →
      c = n ∧ info.socket = sock) ∧
      (s.server.acceptor = none ∨ s.server.acceptor = some sock ∧ s.server.nextClientId = n))
    {a : Action} (hs : s.step localTime a = some s') :
    s'.server.running = false ∧ (∀ c info, s'.server.clients.find? c = some info →
      c = n ∧ info.socket = sock) ∧
      (s'.server.acceptor = none ∨ s'.server.acceptor = some sock ∧ s'.server.nextClientId = n) := by
  obtain ⟨hrun, hcl, hacc⟩ := hinv
  obtain ⟨-, hcase⟩ := step_cases hs
  rcases hcase with ⟨_, _, _, hr, -⟩ | ⟨sock', rp, now, ha, -, rfl⟩ | ⟨_, _, _, _, _, _, hr, -⟩ |
    ⟨-, -, -, rfl⟩ | ⟨-, -, -, -, -, -, -, -, -, rfl⟩ | ⟨-, -, sent, t, p, -, -, rfl⟩ | ⟨-, hr, -⟩ |
    rfl | ⟨-, -, rfl⟩ | ⟨-, rfl⟩
  · simp [hrun] at hr
  · -- the late registration
    rcases hacc with hacc | ⟨hacc, hn⟩
    · simp [hacc] at ha
    · rw [hacc] at ha; cases ha
      refine ⟨by simpa using hrun, fun c info hc => ?_, .inl (by simp)⟩
      rcases IOCPServer.handleAccept_find? _ _ _ _ hc with hc | hc
      · exact hn ▸ hc
      · exact hcl c info hc
  · simp [hrun] at hr
  · exact ⟨hrun, hcl, hacc⟩
  · exact ⟨hrun, hcl, hacc⟩
  · obtain ⟨-, hnext, hrun', hacc'⟩ := IOCPServer.extends_applyAll { s.server with threadPool := p }
      (s.finishTask localTime _ _ t).2 sent
    simp only [commit_server]
    rw [hrun', hacc', hnext]
    refine ⟨hrun, fun c info hc => ?_, hacc⟩
    rw [IOCPServer.applyAll_find?] at hc
    split at hc
    · cases hc
    · exact hcl c info hc
  · simp [hrun] at hr
  · rw [show s.server.stop = s.server by simp [IOCPServer.stop, hrun]]; exact ⟨hrun, hcl, hacc⟩
  · exact ⟨hrun, hcl, hacc⟩
  · exact ⟨hrun, hcl, hacc⟩

/-- Client 1 is accepted and a worker takes its `on_connect`; the server stops; the handler
then runs, and its welcome line is dropped. -/
def connectThenStop : List Action :=
  [.accept 1 ⟨"10.0.0.1", 5000⟩ true, .register true 0, .take 0]

/-- The accept thread holds the socket of client 1 when the server stops, and registers it
after `Stop`. -/
def acceptAcrossStop : List Action := [.accept 1 ⟨"10.0.0.1", 5000⟩ true]

end ChatServer.System
