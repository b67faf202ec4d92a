import ChatServer.Spec.Server

/-!
# The composed server

The whole process of `server.cpp` after `main` has built its components and `Start` has
succeeded: the transport with its pool, the application state, where each pool worker's
handler stopped, and whether `main` has torn its components down. A run is a sequence of
`Action`s, each one step of one thread, chosen by the scheduler and the environment:

* `accept`, `register`: the accept thread's `accept()` returns a new socket (a handle not open
  now) from a peer, which `HandleAccept` associates with the port or closes (the environment
  decides); then the rest of `HandleAccept` registers it, whether or not `Stop` ran in between;
* `complete`: a completion worker takes the `i`-th outstanding operation from the port with
  an outcome, and runs one iteration of `IOCPWorkerThread`;
* `take`: a pool worker takes the front task;
* `pause`, `finish`: a pool worker runs its task's handler up to the point where it stops
  for other threads (`beginTask`), or from there (or from the start) to its end; the
  environment gives the outcome of each `WSASend` of the handler's sends;
* `sweep`: one iteration of the main loop;
* `stop`: `Stop` from the console handler;
* `shutdown`: `main`'s teardown after the loop: `g_server`, the store, the rooms and the
  controller are reset, and then `~ThreadPool` runs `shutdown`.

Completions and accepts happen only while the server runs: `Stop` joins the completion
workers and closes the listen socket. After the teardown every handler dereferences a reset
global, and so does the accept thread's `HandleAccept` on the deleted server: the process
crashes, and nothing runs after a crash.
-/

namespace ChatServer

/-- The state of the process. -/
structure System where
  server : IOCPServer
  app : App
  paused : UnorderedMap Nat Resume
  tornDown : Bool
  crashed : Bool

/-- One step of one thread, with the choices of the environment. -/
inductive Action where
  | accept (sock : Socket) (peer : SockAddr) (associated : Bool)
  | register (recvPending : Bool) (now : Int)
  | complete (i : Nat) (r : Completion) (recvPending : Bool) (now : Int)
  | take (w : Nat)
  | pause (w : Nat) (clk : Clock)
  | finish (w : Nat) (clk : Clock) (sent : List Bool)
  | sweep (now : Int)
  | stop
  | shutdown
  deriving DecidableEq, Repr

/-- The connection settings `main` gives the controller. -/
def mainConnConfig : CMConfig :=
  { maxConnectionsPerSecond := 50, maxMessagesPerMinute := 60, connectionTimeoutSeconds := 300,
    maxTotalConnections := 1000 }

/-- The store settings `main` gives the message store. -/
def mainStoreConfig : MSConfig :=
  { maxMessagesPerRoom := 100, logDirectory := "./chat_logs", enablePersistence := true }

namespace System

variable (localTime : Int → Tm)

/-- The process after `main` has built its components and `Start` has succeeded, with the
given controller settings, pool size and number of processors, file system and wall-clock
reading. -/
def init (conn : CMConfig) (poolSize processors : Nat) (fs : FileSystem) (wall : Int) :
    System :=
  { server := IOCPServer.start (ThreadPool.new poolSize processors)
    app := { connectionManager := .new conn, chatRooms := .new
             messageStore := MessageStore.new localTime mainStoreConfig fs wall
             clientNames := .empty, log := [] }
    paused := .empty, tornDown := false, crashed := false }

/-- A handler's result: the new application state, and the transport after its effects, with
the outcomes `sent` of their `WSASend`s. -/
def commit (s : System) (r : App × List Effect) (sent : List Bool) : System :=
  { s with server := s.server.applyAll r.2 sent, app := r.1 }

/-- The process crashes. -/
def crash (s : System) : System := { s with crashed := true }

/-- What worker `w` runs when it returns from its task `t`: the rest of the handler from where
it stopped, or the whole handler. -/
def finishTask (s : System) (w : Nat) (clk : Clock) (t : Task) : App × List Effect :=
  match s.paused.find? w with
  | some k => k.run s.app t.clientId
  | none => runTask localTime s.app s.server clk t

/-- One step; `none` when the action is not enabled. -/
def step (s : System) (a : Action) : Option System :=
  if s.crashed then none
  else match a with
  | .accept sock peer associated =>
    if s.server.running ∧ s.server.acceptor = none ∧ s.server.peers.find? sock = none then
      some { s with server := s.server.acceptSocket sock peer associated }
    else none
  | .register recvPending now =>
    match s.server.acceptor with
    | some sock =>
      some (if s.tornDown then s.crash
        else { s with server := s.server.handleAccept sock recvPending now })
    | none => none
  | .complete i r recvPending now =>
    match s.server.pending[i]? with
    | some io =>
      if s.server.running ∧ r.isBytes then
        let srv := { s.server with pending := s.server.pending.eraseIdx i }
        some { s with server := srv.complete io r recvPending now }
      else none
    | none => none
  | .take w =>
    (s.server.threadPool.take w).map fun p => { s with server := { s.server with threadPool := p } }
  | .pause w clk =>
    match s.server.threadPool.workers[w]?, s.paused.find? w with
    | some (some t), none =>
      if s.tornDown then some s.crash
      else match beginTask localTime s.app s.server clk t with
        | .stopped a k => some { s with app := a, paused := s.paused.set w k }
        | .done _ => none
    | _, _ => none
  | .finish w clk sent =>
    (s.server.threadPool.finish w).map fun r =>
      if s.tornDown then s.crash
      else commit { s with server := { s.server with threadPool := r.2 }, paused := s.paused.erase w }
        (s.finishTask localTime w clk r.1) sent
  | .sweep now =>
    if s.server.running then some (s.commit (sweep s.app s.server now) []) else none
  | .stop => some { s with server := s.server.stop }
  | .shutdown =>
    if s.server.running ∨ s.tornDown then none
    else some { s with
      tornDown := true
      server := { s.server with threadPool := s.server.threadPool.shutdown } }

/-- The state after a sequence of actions; `none` when one is not enabled. -/
def run (s : System) : List Action → Option System
  | [] => some s
  | a :: as => (s.step localTime a).bind fun s' => s'.run as

/-! ## Steps -/

variable {localTime} {s : System}

theorem run_append (acts₁ acts₂ : List Action) :
    s.run localTime (acts₁ ++ acts₂) =
      (s.run localTime acts₁).bind fun s' => s'.run localTime acts₂ := by
  induction acts₁ generalizing s with
  | nil => rfl
  | cons a acts ih =>
    show (s.step localTime a).bind (fun s' => s'.run localTime (acts ++ acts₂)) = _
    simp only [run, Option.bind_assoc, ih]

/-- What a step can do: one case per action, with its guard; a handler or `HandleAccept`
after the teardown crashes. -/
theorem step_cases {s' : System} {a : Action} (hs : s.step localTime a = some s') :
    s.crashed = false ∧
    ((∃ sock peer associated, s.server.running = true ∧ s.server.acceptor = none ∧
      s.server.peers.find? sock = none ∧
      s' = { s with server := s.server.acceptSocket sock peer associated }) ∨
    (∃ sock recvPending now, s.server.acceptor = some sock ∧ s.tornDown = false ∧
      s' = { s with server := s.server.handleAccept sock recvPending now }) ∨
    (∃ i io r recvPending now, s.server.pending[i]? = some io ∧ s.server.running = true ∧
      r.isBytes = true ∧ s' = { s with
        server := ({ s.server with pending := s.server.pending.eraseIdx i } : IOCPServer).complete io
          r recvPending now }) ∨
    (∃ w p, s.server.threadPool.take w = some p ∧
      s' = { s with server := { s.server with threadPool := p } }) ∨
    (∃ w clk t a k, s.server.threadPool.workers[w]? = some (some t) ∧ s.paused.find? w = none ∧
      s.tornDown = false ∧ beginTask localTime s.app s.server clk t = .stopped a k ∧
      s' = { s with app := a, paused := s.paused.set w k }) ∨
    (∃ w clk sent t p, s.server.threadPool.finish w = some (t, p) ∧ s.tornDown = false ∧
      s' = commit { s with server := { s.server with threadPool := p }, paused := s.paused.erase w }
        (s.finishTask localTime w clk t) sent) ∨
    (∃ now, s.server.running = true ∧ s' = s.commit (sweep s.app s.server now) []) ∨
    s' = { s with server := s.server.stop } ∨
    (s.server.running = false ∧ s.tornDown = false ∧ s' = { s with
      tornDown := true
      server := { s.server with threadPool := s.server.threadPool.shutdown } }) ∨
    (s.tornDown = true ∧ s' = s.crash)) := by
  unfold step at hs
  split at hs
  · cases hs
  rename_i hcr
  refine ⟨by simpa using hcr, ?_⟩
  cases a with
  | accept sock peer associated =>
    simp only at hs
    split at hs
    · rename_i h
      cases hs; exact .inl ⟨sock, peer, associated, h.1, h.2.1, h.2.2, rfl⟩
    · cases hs
  | register recvPending now =>
    simp only at hs
    split at hs
    · rename_i sock hacc
      cases hs
      cases hd : s.tornDown
      · exact .inr (.inl ⟨sock, recvPending, now, hacc, rfl, by simp [hd]⟩)
      · exact .inr (.inr (.inr (.inr (.inr (.inr (.inr (.inr (.inr ⟨rfl, by simp [hd]⟩))))))))
    · cases hs
  | complete i r recvPending now =>
    simp only at hs
    split at hs
    · split at hs
      · rename_i h; cases hs
        exact .inr (.inr (.inl ⟨i, _, r, recvPending, now, ‹_›, h.1, h.2, rfl⟩))
      · cases hs
    · cases hs
  | take w =>
    obtain ⟨p, hp, rfl⟩ := Option.map_eq_some'.1 hs
    exact .inr (.inr (.inr (.inl ⟨w, p, hp, rfl⟩)))
  | pause w clk =>
    simp only at hs
    split at hs
    · rename_i t hw hk
      split at hs
      · cases hs; exact .inr (.inr (.inr (.inr (.inr (.inr (.inr (.inr (.inr ⟨‹_›, rfl⟩))))))))
      · rename_i hd
        split at hs
        · cases hs
          exact .inr (.inr (.inr (.inr (.inl ⟨w, clk, t, _, _, hw, hk, by simpa using hd, ‹_›, rfl⟩))))
        · cases hs
    · cases hs
  | finish w clk sent =>
    obtain ⟨⟨t, p⟩, hp, rfl⟩ := Option.map_eq_some'.1 hs
    cases hd : s.tornDown
    · exact .inr (.inr (.inr (.inr (.inr (.inl ⟨w, clk, sent, t, p, hp, rfl, by simp [hd]⟩)))))
    · exact .inr (.inr (.inr (.inr (.inr (.inr (.inr (.inr (.inr ⟨rfl, by simp [hd]⟩))))))))
  | sweep now =>
    simp only at hs
    split at hs
    · cases hs; exact .inr (.inr (.inr (.inr (.inr (.inr (.inl ⟨now, ‹_›, rfl⟩))))))
    · cases hs
  | stop => cases hs; exact .inr (.inr (.inr (.inr (.inr (.inr (.inr (.inl rfl)))))))
  | shutdown =>
    simp only at hs
    split at hs
    · cases hs
    · rename_i h
      simp only [not_or, Bool.not_eq_true] at h
      cases hs
      exact .inr (.inr (.inr (.inr (.inr (.inr (.inr (.inr (.inl ⟨h.1, h.2, rfl⟩))))))))

/-- A reflexive, transitive relation that every step establishes holds along every run. -/
theorem run_rel {R : System → System → Prop} (refl : ∀ s, R s s)
    (trans : ∀ {s₁ s₂ s₃}, R s₁ s₂ → R s₂ s₃ → R s₁ s₃)
    (step : ∀ {s s' a}, s.step localTime a = some s' → R s s') {s' : System} {acts : List Action}
    (hr : s.run localTime acts = some s') : R s s' := by
  induction acts generalizing s with
  | nil => exact (Option.some.inj hr : s = s') ▸ refl s
  | cons a acts ih =>
    obtain ⟨s₁, h₁, h₂⟩ := Option.bind_eq_some.1 hr
    exact trans (step h₁) (ih h₂)

/-- A property that every step keeps holds after every run. -/
theorem run_preserves {P : System → Prop} (step : ∀ {s s' a}, s.step localTime a = some s' → P s → P s')
    {s' : System} {acts : List Action} (hr : s.run localTime acts = some s') (h : P s) : P s' :=
  run_rel (R := fun s s' => P s → P s') (fun _ => id) (fun h₁ h₂ => h₂ ∘ h₁) step hr h

theorem step_stop_eq {s' : System} (hs : s.step localTime .stop = some s') :
    s' = { s with server := s.server.stop } := by
  unfold step at hs
  split at hs <;> simp_all

theorem step_take_eq {s' : System} {w : Nat} (hs : s.step localTime (.take w) = some s') :
    ∃ p, s.server.threadPool.take w = some p ∧
      s' = { s with server := { s.server with threadPool := p } } := by
  unfold step at hs
  split at hs
  · cases hs
  obtain ⟨p, hp, rfl⟩ := Option.map_eq_some'.1 hs
  exact ⟨p, hp, rfl⟩

/-- A worker stops in its handler: before the teardown, where `beginTask` stops; after it, the
process crashes. -/
theorem step_pause_eq {s' : System} {w : Nat} {clk : Clock}
    (hs : s.step localTime (.pause w clk) = some s') :
    ∃ t, s.server.threadPool.workers[w]? = some (some t) ∧ s.paused.find? w = none ∧
      ((s.tornDown = true ∧ s' = s.crash) ∨ (s.tornDown = false ∧ ∃ a k,
        beginTask localTime s.app s.server clk t = .stopped a k ∧
        s' = { s with app := a, paused := s.paused.set w k })) := by
  unfold step at hs
  split at hs
  · cases hs
  simp only at hs
  split at hs
  · rename_i t hw hk
    split at hs
    · cases hs; exact ⟨t, hw, hk, .inl ⟨‹_›, rfl⟩⟩
    · rename_i hd
      split at hs
      · cases hs; exact ⟨t, hw, hk, .inr ⟨by simpa using hd, _, _, ‹_›, rfl⟩⟩
      · cases hs
  · cases hs

/-- A worker returns from its task: before the teardown, with what it runs then; after it,
the process crashes. -/
theorem step_finish_eq {s' : System} {w : Nat} {clk : Clock} {sent : List Bool}
    (hs : s.step localTime (.finish w clk sent) = some s') :
    ∃ t p, s.server.threadPool.finish w = some (t, p) ∧ ((s.tornDown = true ∧ s' = s.crash) ∨
      (s.tornDown = false ∧ s' = commit
        { s with server := { s.server with threadPool := p }, paused := s.paused.erase w }
        (s.finishTask localTime w clk t) sent)) := by
  unfold step at hs
  split at hs
  · cases hs
  obtain ⟨⟨t, p⟩, hp, rfl⟩ := Option.map_eq_some'.1 hs
  cases hd : s.tornDown
  · exact ⟨t, p, hp, .inr ⟨rfl, by simp [hd]⟩⟩
  · exact ⟨t, p, hp, .inl ⟨rfl, by simp [hd]⟩⟩

theorem step_complete (hcr : s.crashed = false) {i : Nat} {io : PerIoData}
    (hio : s.server.pending[i]? = some io) (hr : s.server.running = true) {r : Completion}
    (hb : r.isBytes = true) (recvPending : Bool) (now : Int) :
    s.step localTime (.complete i r recvPending now) =
      some { s with server := ({ s.server with pending := s.server.pending.eraseIdx i } :
        IOCPServer).complete io r recvPending now } := by
  simp [step, hcr, hio, hr, hb]

theorem step_take (hcr : s.crashed = false) {w : Nat} {p : ThreadPool Task}
    (hp : s.server.threadPool.take w = some p) :
    s.step localTime (.take w) = some { s with server := { s.server with threadPool := p } } := by
  simp [step, hcr, hp]

theorem step_finish (hcr : s.crashed = false) (hd : s.tornDown = false) {w : Nat} {t : Task}
    {p : ThreadPool Task} (hp : s.server.threadPool.finish w = some (t, p)) (clk : Clock)
    (sent : List Bool) :
    s.step localTime (.finish w clk sent) =
      some (commit { s with server := { s.server with threadPool := p }, paused := s.paused.erase w }
        (s.finishTask localTime w clk t) sent) := by
  simp [step, hcr, hd, hp]

end System

end ChatServer
