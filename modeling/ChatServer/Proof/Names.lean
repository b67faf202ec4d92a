import ChatServer.Proof.Activity

/-!
# Name registration

`HandleMessage` treats a chunk as the client's name when the chunk passes its checks (it is
non-empty after trimming, within the rate limit, and its client is not muted), does not begin
with `#`, and `GetClientName(c)` is the placeholder `User#<c>`. The placeholder is not a state
of its own: it is what `GetClientName` answers for a client without an entry.

* `handleMessage_of_afterChecks`: a chunk that passes the checks registers, runs a command, or
  is broadcast, and which one is decided by the name and the first character only.
* `Inv.step_name`, `name_kept_while_connected`: in every run, a name other than the
  placeholder does not change until `HandleDisconnect(c)` is taken, as long as no worker is
  stopped between `GetClientName(c)` and `SetClientName(c)` (`registering`): a worker stops
  there only after reading the placeholder, so no step starts such a registration.
* `name_registered_once`: so a client registers once, and its later chunks are chat lines,
  unless the name it chose is the placeholder itself, or its chunk is handled after its
  `HandleDisconnect`. Registration does not check that the name is free: it leaves every other
  client's name as it was, so two clients can go by the same name.
* `name_registered_twice`: client 1 registers twice, as `User#1` and then as `bob`; and on two
  workers, two chunks of one client both read the placeholder and both register.
-/

namespace ChatServer

variable (localTime : Int → Tm)

/-- The placeholder name of client `c`. -/
def placeholder (c : Int) : String := "User#" ++ toString c

/-- The application state after the checks of `HandleMessage`, for a chunk that passes them:
`none` for a chunk that is empty after trimming, over the rate limit, or from a muted
client. -/
def afterChecks (a : App) (c : Int) (message : String) (clk : Clock) : Option App :=
  if trimTrailing message = "" then none
  else
    let r := a.connectionManager.allowMessage c clk.steady
    if !r.1 then none
    else
      let q := (r.2.recordMessage c clk.steady).isMuted c clk.steady
      if q.1 then none else some { a with connectionManager := q.2 }

/-- The checks change the controller only. -/
theorem afterChecks_eq {a a₁ : App} {c : Int} {message : String} {clk : Clock}
    (h : afterChecks a c message clk = some a₁) :
    a₁ = { a with connectionManager := a₁.connectionManager } := by
  simp only [afterChecks] at h
  split_ifs at h
  cases h; rfl

/-- A chunk that fails the checks changes no name and prints nothing. -/
theorem handleMessage_of_afterChecks_none {a : App} (srv : IOCPServer) {c : Int}
    {message : String} {clk : Clock} (h : afterChecks a c message clk = none) :
    (handleMessage localTime a srv c message clk).1.clientNames = a.clientNames ∧
      (handleMessage localTime a srv c message clk).1.log = a.log := by
  simp only [afterChecks] at h
  rw [handleMessage_eq]
  dsimp only
  split_ifs at h with h₁ h₂ h₃
  · rw [if_pos h₁]; exact ⟨rfl, rfl⟩
  · rw [if_neg h₁, if_pos h₂]; exact ⟨rfl, rfl⟩
  · rw [if_neg h₁, if_neg h₂, if_pos h₃]; exact ⟨rfl, rfl⟩

/-- **A chunk that passes the checks** registers the client when its name is the placeholder
and the chunk does not begin with `#`; otherwise it is a command or a chat line. -/
theorem handleMessage_of_afterChecks {a a₁ : App} (srv : IOCPServer) {c : Int}
    {message : String} {clk : Clock} (h : afterChecks a c message clk = some a₁) :
    handleMessage localTime a srv c message clk =
      if a.getClientName c = placeholder c ∧ (trimTrailing message).front ≠ '#' then
        let a₂ := a₁.setClientName c (trimTrailing message)
        let room := a₂.chatRooms.getClientRoom c
        (a₂.print (.registered c (trimTrailing message)),
          sendToAll ((a₂.chatRooms.getRoomMembers room).filter (· ≠ c))
            (trimTrailing message ++ " has joined #" ++ room))
      else if (trimTrailing message).front = '#' then
        processCommand localTime a₁ srv c (trimTrailing message) clk
      else broadcastToRoom localTime a₁ c (trimTrailing message) clk := by
  simp only [afterChecks] at h
  split_ifs at h with h₁ h₂ h₃
  cases h
  simp only [handleMessage_eq, h₁, h₂, h₃, if_false, Bool.not_eq_true', Bool.false_eq_true]
  rfl

/-- A named client's chunk changes no name. -/
theorem handleMessage_clientNames_of_named {a : App} (srv : IOCPServer) {c : Int}
    (hname : a.getClientName c ≠ placeholder c) (message : String) (clk : Clock) :
    (handleMessage localTime a srv c message clk).1.clientNames = a.clientNames := by
  cases h : afterChecks a c message clk with
  | none => exact (handleMessage_of_afterChecks_none localTime srv h).1
  | some a₁ =>
    rw [handleMessage_of_afterChecks localTime srv h, if_neg fun h' => hname h'.1,
      show a.clientNames = a₁.clientNames by rw [afterChecks_eq h]]
    split
    · exact (processCommand_keeps _ _ _ _).names
    · exact (broadcastToRoom_keeps _ _ _).names

/-- A handler stops at a registration only for a chunk of a client whose name is the
placeholder. -/
theorem beginTask_naming {a a' : App} {srv : IOCPServer} {clk : Clock} {t : Task} {msg : String}
    (h : beginTask localTime a srv clk t = .stopped a' (.naming msg)) :
    ∃ c m, t = .onMessage c m ∧ a.getClientName c = placeholder c := by
  rcases beginTask_stopped_eq localTime h with ⟨_, _, -, hk, -⟩ |
    ⟨c, m, rfl, -, ⟨-, hn, -⟩ | ⟨hk, -⟩⟩ | ⟨_, -, -, hk, -⟩
  · cases hk
  · exact ⟨c, m, rfl, hn⟩
  · cases hk
  · cases hk

/-- The rest of a handler of client `d` names no client other than `d`. -/
theorem resume_getClientName (a : App) {c d : Int} (hcd : c ≠ d) (k : Resume) :
    (k.run a d).1.getClientName c = a.getClientName c := by
  cases k <;> simp [Resume.run, connectAdmitted, registerName, broadcastSend, disconnectRest,
    App.print, App.setClientName, App.getClientName, UnorderedMap.find?_erase, hcd]

/-- A handler run whole keeps a name other than the placeholder, unless it is the client's
`HandleDisconnect`. -/
theorem runTask_getClientName (a : App) (srv : IOCPServer) (clk : Clock) {c : Int}
    (hn : a.getClientName c ≠ placeholder c) {t : Task} (ht : t ≠ .onDisconnect c) :
    (runTask localTime a srv clk t).1.getClientName c = a.getClientName c := by
  cases t with
  | onConnect d sock =>
    simp [runTask, App.getClientName, (handleConnect_spec a srv d sock clk.steady).1]
  | onMessage d m =>
    by_cases hd : c = d
    · subst hd
      simp [runTask, App.getClientName, handleMessage_clientNames_of_named localTime srv hn m clk]
    · simp [runTask, App.getClientName,
        (handleMessage_ok localTime (a := a) (c := d) srv m clk).1.names c hd]
  | onDisconnect d =>
    have hd : c ≠ d := fun e => ht (e ▸ rfl)
    simp [runTask, App.getClientName, (handleDisconnect_spec a d).2.1, hd]

namespace System

/-- A pool worker is stopped in the registration of a chunk of client `c`: `HandleMessage`
read the placeholder from `GetClientName(c)` and has not called `SetClientName` yet. -/
def registering (s : System) (c : Int) : Prop :=
  ∃ w msg m, s.paused.find? w = some (.naming msg) ∧
    s.server.threadPool.workers[w]? = some (some (.onMessage c m))

theorem registering_of_eq {s s' : System} {c : Int} (hp : s'.paused = s.paused)
    (hw : s'.server.threadPool.workers = s.server.threadPool.workers) :
    s'.registering c → s.registering c := by
  unfold registering; rw [hp, hw]; exact id

/-- **One step keeps a name other than the placeholder** while no worker is stopped in a
registration of the client and its `HandleDisconnect` is not taken, and starts no such
registration: a worker stops there only after reading the placeholder. -/
theorem Inv.step_name {lt : Int → Tm} {s s' : System} {a : Action} {c : Int} (h : s.Inv)
    (hs : s.step lt a = some s') (hn : s.app.getClientName c ≠ placeholder c)
    (hreg : ¬s.registering c) (hx : Task.onDisconnect c ∉ s'.server.threadPool.started) :
    s'.app.getClientName c = s.app.getClientName c ∧ ¬s'.registering c := by
  obtain ⟨-, hcase⟩ := step_cases hs
  rcases hcase with ⟨sock, peer, assoc, -, -, -, rfl⟩ | ⟨sock, rp, now, -, -, rfl⟩ |
    ⟨i, io, r, rp, now, -, -, -, rfl⟩ | ⟨w, p, hp, rfl⟩ | ⟨w, clk, t, a, k, hw, -, -, hb, rfl⟩ |
    ⟨w, clk, sent, t, p, hp, -, rfl⟩ | ⟨now, -, rfl⟩ | rfl | ⟨-, -, rfl⟩ | ⟨-, rfl⟩
  · exact ⟨rfl, mt (registering_of_eq (s := s) rfl (by
      rw [(IOCPServer.extends_acceptSocket s.server sock peer assoc).1])) hreg⟩
  · exact ⟨rfl, mt (registering_of_eq (s := s) rfl
      (IOCPServer.extends_handleAccept s.server sock rp now).1.workers) hreg⟩
  · exact ⟨rfl, mt (registering_of_eq (s := s) rfl
      (IOCPServer.extends_complete _ io r rp now).1.workers) hreg⟩
  · -- a worker takes a task: it was not stopped anywhere
    obtain ⟨t, ts, hw, -, rfl⟩ := ThreadPool.take_eq hp
    refine ⟨rfl, fun ⟨w', msg, m, hk, hw'⟩ => hreg ⟨w', msg, m, hk, ?_⟩⟩
    have hne : w ≠ w' := by
      rintro rfl
      obtain ⟨t', ht', -⟩ := h.paused_fits w _ hk
      simp [hw] at ht'
    rwa [List.getElem?_set_ne hne] at hw'
  · -- a worker stops in its handler: at a registration only after reading the placeholder
    have hnames := (beginTask_stopped lt hb).2.1
    refine ⟨by simp only [App.getClientName, hnames], fun ⟨w', msg, m, hk, hw'⟩ => ?_⟩
    simp only [UnorderedMap.find?_set] at hk
    split at hk
    · subst w'
      cases hk
      rw [hw] at hw'
      cases hw'
      obtain ⟨d, m', he, hd⟩ := beginTask_naming lt hb
      cases he
      exact hn hd
    · exact hreg ⟨w', msg, m, hk, hw'⟩
  · -- a worker returns from its task
    have hstarted := (ThreadPool.history_finish hp).2.1
    obtain ⟨hw, rfl⟩ := ThreadPool.finish_eq hp
    have hx' : ∀ w' msg, (s.paused.erase w).find? w' = some (.naming msg) →
        s.paused.find? w' = some (.naming msg) ∧ w ≠ w' := fun w' msg hk => by
      simp only [UnorderedMap.find?_erase] at hk
      split at hk
      · cases hk
      · exact ⟨hk, by omega⟩
    refine ⟨?_, fun ⟨w', msg, m, hk, hw'⟩ => ?_⟩
    · simp only [commit_app, System.finishTask]
      cases hk : s.paused.find? w with
      | some k =>
        obtain ⟨t', hw', hfit⟩ := h.paused_fits w k hk
        rw [hw] at hw'
        cases hw'
        by_cases hct : c = t.clientId
        · cases k with
          | naming msg =>
            cases t with
            | onMessage d m => subst hct; exact absurd ⟨w, msg, m, hk, hw⟩ hreg
            | _ => exact hfit.elim
          | admitted ip => rfl
          | stored name room message => rfl
          | releasing name room =>
            cases t with
            | onDisconnect d =>
              subst hct
              refine absurd ?_ hx
              rw [commit_server, (IOCPServer.extends_applyAll _ _ _).1.started, hstarted]
              exact h.running_started _ (mem_running hw)
            | _ => exact hfit.elim
        · exact resume_getClientName s.app hct k
      | none =>
        refine runTask_getClientName lt s.app s.server clk hn fun he => hx ?_
        rw [commit_server, (IOCPServer.extends_applyAll _ _ _).1.started, hstarted, ← he]
        exact h.running_started t (mem_running hw)
    · rw [commit_paused] at hk
      rw [commit_server, (IOCPServer.extends_applyAll _ _ _).1.workers] at hw'
      obtain ⟨hk, hne⟩ := hx' w' msg hk
      exact hreg ⟨w', msg, m, hk, by rwa [List.getElem?_set_ne hne] at hw'⟩
  · exact ⟨by simp [App.getClientName, (sweep_spec s.app s.server now).2.1],
      mt (registering_of_eq (s := s) rfl (IOCPServer.extends_applyAll _ _ _).1.workers) hreg⟩
  · exact ⟨rfl, mt (registering_of_eq (s := s) rfl
      (by rw [(IOCPServer.extends_stop s.server).1])) hreg⟩
  · exact ⟨rfl, hreg⟩
  · exact ⟨rfl, hreg⟩

/-- **A name other than the placeholder is kept while the client is connected**, along every
run from a state with the invariant in which no worker is stopped in a registration of the
client: it does not change until a worker takes `HandleDisconnect(c)`. -/
theorem name_kept_while_connected {lt : Int → Tm} {s s' : System} {acts : List Action}
    (h : s.Inv) (hr : s.run lt acts = some s') {c : Int}
    (hn : s.app.getClientName c ≠ placeholder c) (hreg : ¬s.registering c)
    (hx : Task.onDisconnect c ∉ s'.server.threadPool.started) :
    s'.app.getClientName c = s.app.getClientName c := by
  induction acts generalizing s with
  | nil => cases hr; rfl
  | cons a acts ih =>
    obtain ⟨s₁, h₁, h₂⟩ := Option.bind_eq_some.1 hr
    obtain ⟨he, hreg₁⟩ := h.step_name h₁ hn hreg fun hm => hx ((run_grows h₂).started.subset hm)
    rw [ih (h.step h₁) h₂ (he ▸ hn) hreg₁, he]

end System

/-- **Registration happens once per connection, unless the name is the placeholder.** A chunk
that `HandleMessage` processes for `c` is a registration (it names the client and prints its
line) exactly when it passes the checks, does not begin with `#`, and `GetClientName(c)` is
`User#<c>`; it does not look at the names of the other clients and leaves each as it was, so
a name another client already has is taken again. Any other chunk names no client and prints
no registration. Every chunk of `c` whose name is not `User#<c>` that passes the checks and does
not begin with `#` is broadcast by `BroadcastToRoom`. In every run, once the name is not
`User#<c>` and no worker is stopped between `GetClientName(c)` and `SetClientName(c)`, the name
stays until `HandleDisconnect(c)` is taken. -/
theorem name_registered_once :
    (∀ (lt : Int → Tm) (a : App) (srv : IOCPServer) (c : Int) (message : String) (clk : Clock),
      let r := handleMessage lt a srv c message clk
      let registers := (afterChecks a c message clk).isSome ∧
        a.getClientName c = placeholder c ∧ (trimTrailing message).front ≠ '#'
      (registers → r.1.getClientName c = trimTrailing message ∧
        (∀ d, d ≠ c → r.1.clientNames.find? d = a.clientNames.find? d) ∧
        r.1.log = a.log ++ [.registered c (trimTrailing message)]) ∧
      (¬registers → r.1.clientNames = a.clientNames ∧
        ∃ L, r.1.log = a.log ++ L ∧ ∀ d n, LogLine.registered d n ∉ L) ∧
      (∀ a₁, afterChecks a c message clk = some a₁ → a.getClientName c ≠ placeholder c →
        (trimTrailing message).front ≠ '#' →
        r = broadcastToRoom lt a₁ c (trimTrailing message) clk)) ∧
    ∀ {lt : Int → Tm} {conn : CMConfig} {poolSize processors : Nat} {fs : FileSystem}
      {wall : Int} {acts acts' : List Action} {s s' : System},
      (System.init lt conn poolSize processors fs wall).run lt acts = some s →
      s.run lt acts' = some s' → ∀ c, s.app.getClientName c ≠ placeholder c →
      ¬s.registering c → Task.onDisconnect c ∉ s'.server.threadPool.started →
      s'.app.getClientName c = s.app.getClientName c := by
  refine ⟨fun lt a srv c message clk => ⟨fun ⟨hs, hname, hfront⟩ => ?_, fun hn => ?_,
    fun a₁ h hname hfront => ?_⟩, fun hr hr' c hn hreg hx =>
      System.name_kept_while_connected ((System.inv_init _ _ _ _ _ _).run hr) hr' hn hreg hx⟩
  · obtain ⟨a₁, h⟩ := Option.isSome_iff_exists.1 hs
    rw [handleMessage_of_afterChecks lt srv h, if_pos ⟨hname, hfront⟩, afterChecks_eq h]
    simp +contextual [App.getClientName, App.print, App.setClientName]
  · cases h : afterChecks a c message clk with
    | none =>
      obtain ⟨hnames, hlog⟩ := handleMessage_of_afterChecks_none lt srv h
      exact ⟨hnames, [], by simp [hlog], by simp⟩
    | some a₁ =>
      have hreg : ¬(a.getClientName c = placeholder c ∧ (trimTrailing message).front ≠ '#') :=
        fun h' => hn ⟨by simp [h], h'⟩
      have hk : Keeps a₁ (if (trimTrailing message).front = '#' then
          processCommand lt a₁ srv c (trimTrailing message) clk
          else broadcastToRoom lt a₁ c (trimTrailing message) clk).1 :=
        .ite (processCommand_keeps _ _ _ _) (broadcastToRoom_keeps _ _ _)
      have hnames : a₁.clientNames = a.clientNames := by rw [afterChecks_eq h]
      have hlog : a₁.log = a.log := by rw [afterChecks_eq h]
      rw [handleMessage_of_afterChecks lt srv h, if_neg hreg, ← hnames, ← hlog]
      exact ⟨hk.names, hk.log⟩
  · rw [handleMessage_of_afterChecks lt srv h, if_neg fun h' => hname h'.1, if_neg hfront]

namespace System

/-- Client 1 connects, registers as `User#1`, then sends `bob`. -/
def placeholderName : List Action :=
  [.accept 1 ⟨"10.0.0.1", 5000⟩ true, .register true 0, .take 0, .finish 0 ⟨0, 0⟩ [],
    .complete 0 (.ok "User#1\n") true 0, .take 0, .finish 0 ⟨0, 0⟩ [],
    .complete 1 (.ok "bob\n") true 0, .take 0, .finish 0 ⟨0, 0⟩ []]

/-- On two workers, client 1 connects and sends `alice` and `bob`; each worker takes one
chunk and stops after `GetClientName`, then both go on. -/
def racingNames : List Action :=
  [.accept 1 ⟨"10.0.0.1", 5000⟩ true, .register true 0, .take 0, .finish 0 ⟨0, 0⟩ [],
    .complete 0 (.ok "alice\n") true 0, .complete 1 (.ok "bob\n") true 0, .take 0, .take 1,
    .pause 0 ⟨0, 0⟩, .pause 1 ⟨0, 0⟩, .finish 0 ⟨0, 0⟩ [], .finish 1 ⟨0, 0⟩ []]

/-- **A client registers twice while connected**: the name `User#1` is its own placeholder,
so client 1 stays unnamed and its next chunk registers it again; and on two workers, two
chunks of client 1 both read the placeholder before either names it, so both register. -/
theorem name_registered_twice :
    (∃ s, boot.run noonClock placeholderName = some s ∧ (s.server.clients.find? 1).isSome ∧
      s.app.log = [.connected 1 "10.0.0.1:5000", .registered 1 "User#1", .registered 1 "bob"]) ∧
    ∃ s, pairBoot.run noonClock racingNames = some s ∧ (s.server.clients.find? 1).isSome ∧
      s.app.log = [.connected 1 "10.0.0.1:5000", .registered 1 "alice", .registered 1 "bob"] :=
  ⟨⟨_, (Option.some_get (by decide)).symm, by decide, by decide⟩,
    ⟨_, (Option.some_get (by decide)).symm, by decide, by decide⟩⟩

end System

end ChatServer
