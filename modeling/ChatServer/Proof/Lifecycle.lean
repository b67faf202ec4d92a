import ChatServer.Proof.Handlers
import ChatServer.Spec.System

/-!
# The lifecycle invariants of the composed server

What holds in every state of every run of the process, whatever the scheduling of the
accept thread, the completion workers, the pool's workers (and where their handlers stop) and
the main loop, and whatever the peers and the network do.

* `System.Inv`: the transport's invariant; the rooms keep the membership invariant and
  every room stays public; named clients have ids handed out; a task a worker runs was taken
  from the queue, and a worker stopped in a handler runs a task whose handler stops there
  (`Resume.Fits`); a client `HandleConnect` admitted keeps a room until its
  `HandleDisconnect` is taken; the pool is stopped only by the teardown, after `Stop`.
* `Inv.step`, `Inv.run`: every step keeps it, from the state `main` starts.
* `step_grows`, `run_grows`: the pool's history and its started tasks only grow, and the
  number of workers never changes.
* `Inv.step_app`, `Inv.run_app`: what a step does to the application state, and a relation
  that every part of every handler establishes holds along every run.
-/

namespace ChatServer

/-- A handler of task `t` can stop at `k`: `HandleConnect` after admitting, `HandleMessage`
of a chunk that does not start with `#`, at the registration of the trimmed chunk or after
storing it, or `HandleDisconnect` inside `OnDisconnect`. -/
def Resume.Fits : Resume → Task → Prop
  | .admitted _, .onConnect _ _ => True
  | .naming msg, .onMessage _ m => msg = trimTrailing m ∧ msg.front ≠ '#'
  | .stored _ _ message, .onMessage _ m => message = trimTrailing m ∧ message.front ≠ '#'
  | .releasing _ _, .onDisconnect _ => True
  | _, _ => False

/-- `P` holds between `a` and what the first part of a handler leaves: its result, or the
state where it stops. -/
def Part.Holds (P : App → App → Prop) (a : App) : Part → Prop
  | .done r => P a r.1
  | .stopped a' _ => P a a'

section Parts

variable (localTime : Int → Tm) {a a' : App} {srv : IOCPServer} {clk : Clock} {t : Task}
  {k : Resume}

/-- **Where a handler stops, and what it has done up to there**: `HandleConnect` after
`AllowConnection` admitted the socket's address; `HandleMessage` after the rate limit and the
mute check, at the registration of the trimmed chunk or after storing it under the sender's
name and room; `HandleDisconnect` after `LeaveRoom`, when the test of `OnDisconnect` saw a
count above zero. -/
theorem beginTask_stopped_eq (h : beginTask localTime a srv clk t = .stopped a' k) :
    (∃ c sock, t = .onConnect c sock ∧ k = .admitted (srv.socketAddress sock) ∧
      a' = { a with connectionManager :=
        (a.connectionManager.allowConnection (srv.socketAddress sock) clk.steady).2 }) ∨
    (∃ c m, t = .onMessage c m ∧ (trimTrailing m).front ≠ '#' ∧
      let cm := (((a.connectionManager.allowMessage c clk.steady).2.recordMessage c
        clk.steady).isMuted c clk.steady).2
      (k = .naming (trimTrailing m) ∧ a.getClientName c = "User#" ++ toString c ∧
        a' = { a with connectionManager := cm }) ∨
      (k = .stored (a.getClientName c) (a.chatRooms.getClientRoom c) (trimTrailing m) ∧
        a' = { a with
          connectionManager := cm
          messageStore := a.messageStore.store localTime
            ⟨c, a.getClientName c, a.chatRooms.getClientRoom c, trimTrailing m, clk.system⟩
            clk.system })) ∨
    ∃ c, t = .onDisconnect c ∧ 0 < a.connectionManager.currentConnections ∧
      k = .releasing (a.getClientName c) (a.chatRooms.getClientRoom c) ∧
      a' = { a with chatRooms := a.chatRooms.leaveRoom c } := by
  cases t with
  | onConnect c sock =>
    have h' : connectAllow a srv c sock clk.steady = .stopped a' k := h
    unfold connectAllow at h'
    dsimp only at h'
    split at h' <;> cases h'
    exact .inl ⟨c, sock, rfl, rfl, rfl⟩
  | onMessage c m => exact .inr (.inl ⟨c, m, rfl, messageBegin_stopped localTime h⟩)
  | onDisconnect c =>
    have h' : disconnectBegin a c = .stopped a' k := h
    by_cases hc : 0 < a.connectionManager.currentConnections
    · simp only [disconnectBegin, gt_iff_lt, hc, if_true, Part.stopped.injEq] at h'
      obtain ⟨rfl, rfl⟩ := h'
      exact .inr (.inr ⟨c, rfl, hc, rfl, rfl⟩)
    · simp [disconnectBegin, hc] at h'

/-- A relation between the start of a handler and where its first part leaves it holds when it
holds for the whole handler and for every stop. -/
theorem Part.holds_of_runTask {P : App → App → Prop}
    (hdone : P a (runTask localTime a srv clk t).1)
    (hstop : ∀ a' k, beginTask localTime a srv clk t = .stopped a' k → P a a') :
    (beginTask localTime a srv clk t).Holds P a := by
  cases hb : beginTask localTime a srv clk t with
  | done r =>
    rw [runTask_eq, hb] at hdone
    exact hdone
  | stopped a' k => exact hstop a' k hb

/-- A handler stops only where its task allows. -/
theorem beginTask_fits (h : beginTask localTime a srv clk t = .stopped a' k) : k.Fits t := by
  rcases beginTask_stopped_eq localTime h with ⟨_, _, rfl, rfl, -⟩ |
    ⟨_, _, rfl, hf, ⟨rfl, -⟩ | ⟨rfl, -⟩⟩ | ⟨_, rfl, -, rfl, -⟩
  exacts [trivial, ⟨rfl, hf⟩, ⟨rfl, hf⟩, trivial]

/-- Up to its stop a handler asks only the controller or the store, or, in `HandleDisconnect`,
takes its client out of its room: the names and the log are as they were. -/
theorem beginTask_stopped (h : beginTask localTime a srv clk t = .stopped a' k) :
    (a'.chatRooms = a.chatRooms ∨ ∃ c, t = .onDisconnect c ∧ a'.chatRooms = a.chatRooms.leaveRoom c) ∧
      a'.clientNames = a.clientNames ∧ a'.log = a.log := by
  rcases beginTask_stopped_eq localTime h with ⟨_, _, -, -, rfl⟩ |
    ⟨_, _, -, -, ⟨-, -, rfl⟩ | ⟨-, rfl⟩⟩ | ⟨_, ht, -, -, rfl⟩
  · exact ⟨.inl rfl, rfl, rfl⟩
  · exact ⟨.inl rfl, rfl, rfl⟩
  · exact ⟨.inl rfl, rfl, rfl⟩
  · exact ⟨.inr ⟨_, ht, rfl⟩, rfl, rfl⟩

/-- Up to its stop a handler other than `HandleDisconnect` is an `AppStep` of its client. -/
theorem beginTask_appStep (h : beginTask localTime a srv clk t = .stopped a' k)
    (hd : ∀ c, t ≠ .onDisconnect c) : AppStep t.clientId a a' := by
  cases t with
  | onConnect c sock =>
    rcases connectAllow_spec a srv c sock clk.steady with ⟨_, hd, -⟩ | ⟨cm, hs, hn, hcf, hb, -⟩
    · rw [beginTask, hd] at h; cases h
    · rw [beginTask, hs] at h; cases h
      exact AppStep.controller a cm hn hcf fun _ h => hb ▸ h
  | onMessage c m =>
    have := messageBegin_ok localTime (a := a) (c := c) srv m clk
    rwa [show messageBegin localTime a srv c m clk = .stopped a' k from h] at this
  | onDisconnect c => exact absurd rfl (hd c)

/-- A relation that the first part of a handler and the rest from where it stops establish,
the whole handler establishes. -/
theorem runTask_holds {P : App → App → Prop} (trans : ∀ {a₁ a₂ a₃}, P a₁ a₂ → P a₂ a₃ → P a₁ a₃)
    (hb : (beginTask localTime a srv clk t).Holds P a)
    (hr : ∀ a' k, beginTask localTime a srv clk t = .stopped a' k →
      P a' (k.run a' t.clientId).1) : P a (runTask localTime a srv clk t).1 := by
  rw [runTask_eq]
  revert hb hr
  cases beginTask localTime a srv clk t with
  | done r => exact fun hb _ => hb
  | stopped a' k => exact fun hb hr => trans hb (hr a' k rfl)

end Parts

namespace System

open IOCPServer ChatRoomManager

variable (localTime : Int → Tm)

/-- The invariant of the composed server. -/
structure Inv (s : System) : Prop where
  server : s.server.Inv
  rooms : s.app.chatRooms.Inv
  all_public : AllPublic s.app.chatRooms.rooms
  names_lt : ∀ c, (s.app.clientNames.find? c).isSome → c < s.server.nextClientId
  running_started : ∀ t ∈ s.server.threadPool.running, t ∈ s.server.threadPool.started
  paused_fits : ∀ w k, s.paused.find? w = some k →
    ∃ t, s.server.threadPool.workers[w]? = some (some t) ∧ k.Fits t
  admitted_member : ∀ c ip, LogLine.connected c ip ∈ s.app.log →
    .onDisconnect c ∉ s.server.threadPool.started → (s.app.chatRooms.clientRooms.find? c).isSome
  live : s.tornDown = false → s.server.threadPool.stop = false
  torn_stopped : s.tornDown = true → s.server.running = false
  crashed_torn : s.crashed = true → s.tornDown = true

theorem inv_init (conn : CMConfig) (poolSize processors : Nat) (fs : FileSystem) (wall : Int) :
    (init localTime conn poolSize processors fs wall).Inv where
  server := inv_start _ rfl rfl
  rooms := inv_new
  all_public := allPublic_new
  names_lt := by simp [init]
  running_started := by simp [init, IOCPServer.start, ThreadPool.new, ThreadPool.running, List.mem_replicate]
  paused_fits := by simp [init]
  admitted_member := by simp [init]
  live _ := rfl
  torn_stopped := nofun
  crashed_torn := nofun

variable {localTime} {s s' : System}

@[simp] theorem commit_server (s : System) (r : App × List Effect) (sent : List Bool) :
    (s.commit r sent).server = s.server.applyAll r.2 sent := rfl

@[simp] theorem commit_app (s : System) (r : App × List Effect) (sent : List Bool) :
    (s.commit r sent).app = r.1 := rfl

@[simp] theorem commit_paused (s : System) (r : App × List Effect) (sent : List Bool) :
    (s.commit r sent).paused = s.paused := rfl

@[simp] theorem commit_tornDown (s : System) (r : App × List Effect) (sent : List Bool) :
    (s.commit r sent).tornDown = s.tornDown := rfl

/-- The effects of a handler, with the new application state, keep the invariant when they
are allowed and the new state keeps the application's part of it. -/
theorem Inv.commit (h : s.Inv) {r : App × List Effect} (he : ∀ e ∈ r.2, e.Allowed s.server)
    (hrooms : r.1.chatRooms.Inv) (hpub : AllPublic r.1.chatRooms.rooms)
    (hnames : ∀ c, (r.1.clientNames.find? c).isSome → c < s.server.nextClientId)
    (hadm : ∀ c ip, LogLine.connected c ip ∈ r.1.log →
      .onDisconnect c ∉ s.server.threadPool.started → (r.1.chatRooms.clientRooms.find? c).isSome)
    (sent : List Bool) : (s.commit r sent).Inv := by
  obtain ⟨hx, hnext, hrun, -⟩ := extends_applyAll s.server r.2 sent
  refine ⟨h.server.applyAll he sent, hrooms, hpub, fun c hc => ?_, ?_, ?_,
    fun c ip hc hs => ?_, fun hd => ?_, fun hd => ?_, h.crashed_torn⟩
  · simpa [hnext] using hnames c hc
  · simpa [ThreadPool.running, hx.workers, hx.started] using h.running_started
  · simpa [hx.workers] using h.paused_fits
  · exact hadm c ip hc (by simpa [hx.started] using hs)
  · simpa [hx.stop] using h.live hd
  · simpa [hrun] using h.torn_stopped hd

theorem mem_running {p : ThreadPool Task} {w : Nat} {t : Task}
    (hw : p.workers[w]? = some (some t)) : t ∈ p.running := by
  simp only [ThreadPool.running, List.mem_filterMap, id_eq]
  exact ⟨some t, List.getElem?_mem hw, rfl⟩

/-- A task runs after worker `w` is set to `x` only if it is `x`'s or ran before. -/
theorem mem_running_set {ws : List (Option Task)} {w : Nat} {x : Option Task} {t : Task}
    (ht : t ∈ (ws.set w x).filterMap id) : x = some t ∨ t ∈ ws.filterMap id := by
  simp only [List.mem_filterMap, id_eq] at ht ⊢
  obtain ⟨o, ho, rfl⟩ := ht
  obtain ⟨i, hi, hio⟩ := List.getElem_of_mem ho
  rw [List.getElem_set] at hio
  split at hio
  · exact .inl hio
  · exact .inr ⟨_, List.getElem_mem _, hio⟩

/-- A worker returns from its task and forgets where it stopped: the pool's history and
started tasks are unchanged. -/
theorem Inv.release (h : s.Inv) {w : Nat} {t : Task} {p : ThreadPool Task}
    (hp : s.server.threadPool.finish w = some (t, p)) :
    ({ s with server := { s.server with threadPool := p }, paused := s.paused.erase w } : System).Inv := by
  obtain ⟨hh, hst, hstop, -⟩ := ThreadPool.history_finish hp
  obtain ⟨-, rfl⟩ := ThreadPool.finish_eq hp
  refine ⟨h.server.setPool hh hstop, h.rooms, h.all_public, h.names_lt,
    fun t' ht' => (mem_running_set ht').elim (fun h => by cases h) (h.running_started t'),
    fun w' k hk => ?_, h.admitted_member, fun hd => hstop ▸ h.live hd, h.torn_stopped,
    h.crashed_torn⟩
  simp only [UnorderedMap.find?_erase] at hk
  split at hk
  · cases hk
  · rw [List.getElem?_set_ne (Ne.symm ‹_›)]; exact h.paused_fits w' k hk

/-- A worker takes the front task. -/
theorem Inv.take (h : s.Inv) {w : Nat} {p : ThreadPool Task} (hp : s.server.threadPool.take w = some p) :
    ({ s with server := { s.server with threadPool := p } } : System).Inv := by
  obtain ⟨hh, hstop, -⟩ := ThreadPool.history_take hp
  obtain ⟨t, ts, hw, -, rfl⟩ := ThreadPool.take_eq hp
  refine ⟨h.server.setPool hh hstop, h.rooms, h.all_public, h.names_lt, fun t' ht' => ?_,
    fun w' k hk => ?_, fun c ip hc hs => h.admitted_member c ip hc fun hm => hs (List.mem_append_left _ hm),
    fun hd => hstop ▸ h.live hd, h.torn_stopped, h.crashed_torn⟩
  · rcases mem_running_set ht' with ht | ht
    · cases ht; exact List.mem_append_right _ (List.mem_singleton_self _)
    · exact List.mem_append_left _ (h.running_started t' ht)
  · obtain ⟨t', hw', hfit⟩ := h.paused_fits w' k hk
    have hne : w ≠ w' := fun he => by subst he; simp [hw] at hw'
    exact ⟨t', by rw [List.getElem?_set_ne hne]; exact hw', hfit⟩

/-- A worker stops in its handler: the names and the log are kept, and the rooms too unless
`HandleDisconnect` took its client, whose `on_disconnect` runs, out of its room. -/
theorem Inv.pause (h : s.Inv) {w : Nat} {t : Task} (hw : s.server.threadPool.workers[w]? = some (some t))
    {clk : Clock} {a : App} {k : Resume}
    (hb : beginTask localTime s.app s.server clk t = .stopped a k) :
    ({ s with app := a, paused := s.paused.set w k } : System).Inv := by
  obtain ⟨hrooms, hnames, hlog⟩ := beginTask_stopped localTime hb
  have hadm : ∀ c ip, LogLine.connected c ip ∈ a.log →
      .onDisconnect c ∉ s.server.threadPool.started → (a.chatRooms.clientRooms.find? c).isSome := by
    intro c' ip hin hs
    have hold := h.admitted_member c' ip (hlog ▸ hin) hs
    rcases hrooms with hr | ⟨c, rfl, hr⟩
    · rwa [hr]
    · have hne : c' ≠ c := fun he => hs (he ▸ h.running_started _ (mem_running hw))
      rwa [hr, leaveRoom_clientRooms, if_neg hne]
  have hri : a.chatRooms.Inv ∧ AllPublic a.chatRooms.rooms := by
    rcases hrooms with hr | ⟨c, -, hr⟩ <;> rw [hr]
    exacts [⟨h.rooms, h.all_public⟩, ⟨h.rooms.leaveRoom c, h.all_public.leaveRoom c⟩]
  refine ⟨h.server, hri.1, hri.2, hnames ▸ h.names_lt, h.running_started, fun w' k' hk => ?_, hadm,
    h.live, h.torn_stopped, h.crashed_torn⟩
  simp only [UnorderedMap.find?_set] at hk
  split at hk
  · cases hk; subst w'; exact ⟨t, hw, beginTask_fits localTime hb⟩
  · exact h.paused_fits w' k' hk

/-- The id of a task a worker runs has been handed out. -/
theorem Inv.task_lt (h : s.Inv) {t : Task} (ht : t ∈ s.server.threadPool.started) :
    t.clientId < s.server.nextClientId :=
  h.server.history_lt t (List.mem_append_left _ ht)

/-- The rest of `HandleConnect` for an admitted client keeps the invariant: the client joins
`general`. -/
theorem Inv.connectAdmitted (h : s.Inv) (c : Int) (ip : String) (sent : List Bool) : (s.commit (ChatServer.connectAdmitted s.app c ip) sent).Inv := by
  obtain ⟨hnames, hrooms, hlog, heff, -⟩ := connectAdmitted_spec s.app c ip
  have hjoin := joinRoom_general h.all_public h.rooms c
  refine h.commit (fun e he => ?_) (hrooms ▸ h.rooms.joinRoom _ _ _)
    (hrooms ▸ h.all_public.joinRoom _ _ _) (fun c' hc' => h.names_lt c' (hnames ▸ hc'))
    (fun c' ip' hin hs => ?_) sent
  · cases e with
    | send => trivial
    | disconnect d => exact absurd he (heff d)
  · rw [hlog, List.mem_append, List.mem_singleton] at hin
    rw [hrooms, joinRoom_clientRooms]
    by_cases hc' : c' = c
    · simp [hc', hjoin]
    · simp only [hc', false_and, if_false]
      rcases hin with hin | hin
      · exact h.admitted_member c' ip' hin hs
      · cases hin; exact absurd rfl hc'

/-- `HandleConnect` of a client with an id handed out keeps the invariant: a refused client
is disconnected, an admitted one joins `general`. -/
theorem Inv.handleConnect (h : s.Inv) {c : Int} (hc : c < s.server.nextClientId) (sock : Socket)
    (now : Int) (sent : List Bool) :
    (s.commit (ChatServer.handleConnect s.app s.server c sock now) sent).Inv := by
  rw [ChatServer.handleConnect]
  rcases connectAllow_spec s.app s.server c sock now with ⟨r, hr, hn, hrooms, hlog, heff, -⟩ |
    ⟨cm, hcm, -⟩
  · rw [hr]
    show (s.commit r sent).Inv
    refine h.commit (fun e he => ?_) (hrooms ▸ h.rooms) (hrooms ▸ h.all_public)
      (fun c' hc' => h.names_lt c' (hn ▸ hc')) (fun c' ip hin hs => ?_) sent
    · rw [heff, List.mem_singleton] at he
      subst he; exact hc
    · rw [hlog, List.mem_append, List.mem_singleton] at hin
      rw [hrooms]
      rcases hin with hin | hin
      · exact h.admitted_member c' ip hin hs
      · cases hin
  · rw [hcm]
    exact Inv.connectAdmitted (s := { s with app := { s.app with connectionManager := cm } })
      { h with } c _ sent

/-- A handler of a client with an id handed out that moves only that client's rooms, names
only it, prints no `connected` line and disconnects only it or named clients keeps the
invariant. -/
theorem Inv.handlerOK (h : s.Inv) {c : Int} (hc : c < s.server.nextClientId)
    {r : App × List Effect} (hok : HandlerOK s.app c r) (sent : List Bool) : (s.commit r sent).Inv := by
  obtain ⟨hstep, hdisc⟩ := hok
  have hrooms := RoomsMove.star (P := fun m => AllPublic m.rooms) (fun _ _ hm _ hp => hm.allPublic hp)
    hstep.rooms h.rooms h.all_public
  refine h.commit (fun e he => ?_) hrooms.1 hrooms.2 (fun c' hc' => ?_) (fun c' ip hin hs => ?_) sent
  · cases e with
    | send => trivial
    | disconnect d =>
      rcases hdisc d he with rfl | hd
      exacts [hc, h.names_lt d hd]
  · by_cases hcc : c' = c
    · subst hcc; exact hc
    · exact h.names_lt c' (by rw [← hstep.names c' hcc]; exact hc')
  · obtain ⟨L, hL, hnL⟩ := hstep.log
    rw [hL, List.mem_append] at hin
    rcases hin with hin | hin
    · exact (RoomsMove.star (P := fun m => (m.clientRooms.find? c').isSome)
        (fun _ _ hm _ hp => hm.clientRooms_isSome hp) hstep.rooms h.rooms
        (h.admitted_member c' ip hin hs)).2
    · exact absurd hin (hnL c' ip)

/-- `HandleDisconnect` of a client whose `on_disconnect` a worker took keeps the invariant:
the client leaves its room and loses its name. -/
theorem Inv.handleDisconnect (h : s.Inv) {c : Int}
    (ht : Task.onDisconnect c ∈ s.server.threadPool.started) (sent : List Bool) :
    (s.commit (ChatServer.handleDisconnect s.app c) sent).Inv := by
  obtain ⟨hrooms, hnames, hlog, heff, -⟩ := handleDisconnect_spec s.app c
  refine h.commit (fun e he => ?_) (hrooms ▸ h.rooms.leaveRoom c)
    (hrooms ▸ h.all_public.leaveRoom c) (fun c' hc' => ?_) (fun c' ip hin hs => ?_) sent
  · cases e with
    | send => trivial
    | disconnect d => exact absurd he (heff d)
  · simp only [hnames, UnorderedMap.find?_erase] at hc'
    split at hc'
    · cases hc'
    · exact h.names_lt c' hc'
  · rw [hlog, List.mem_append, List.mem_singleton] at hin
    rw [hrooms, leaveRoom_clientRooms]
    split
    · subst c'; exact absurd ht hs
    · rcases hin with hin | hin
      · exact h.admitted_member c' ip hin hs
      · cases hin

/-- Running a task a worker took keeps the invariant. -/
theorem Inv.runTask (h : s.Inv) {t : Task} (ht : t ∈ s.server.threadPool.started)
    (clk : Clock) (sent : List Bool) :
    (s.commit (ChatServer.runTask localTime s.app s.server clk t) sent).Inv := by
  cases t with
  | onConnect c sock => exact h.handleConnect (h.task_lt ht) sock clk.steady sent
  | onMessage c m => exact h.handlerOK (h.task_lt ht) (handleMessage_ok localTime _ m clk) sent
  | onDisconnect c => exact h.handleDisconnect ht sent

/-- The rest of `HandleDisconnect` after `OnDisconnect` keeps the invariant: the client loses
its name. -/
theorem Inv.disconnectRest (h : s.Inv) (cm : ConnectionManager) (c : Int) (name room : String)
    (sent : List Bool) :
    (s.commit (ChatServer.disconnectRest { s.app with connectionManager := cm } c name room) sent).Inv := by
  obtain ⟨hrooms, hnames, hlog, heff, -⟩ := disconnectRest_spec { s.app with connectionManager := cm } c name room
  refine h.commit (fun e he => ?_) (hrooms ▸ h.rooms) (hrooms ▸ h.all_public) (fun c' hc' => ?_)
    (fun c' ip hin hs => ?_) sent
  · cases e with
    | send => trivial
    | disconnect d => exact absurd he (heff d)
  · simp only [hnames, UnorderedMap.find?_erase] at hc'
    split at hc'
    · cases hc'
    · exact h.names_lt c' hc'
  · rw [hlog, List.mem_append, List.mem_singleton] at hin
    rw [hrooms]
    rcases hin with hin | hin
    · exact h.admitted_member c' ip hin hs
    · cases hin

/-- Running the rest of a handler from where it stopped keeps the invariant. -/
theorem Inv.resume (h : s.Inv) {t : Task} (ht : t ∈ s.server.threadPool.started) {k : Resume}
    (hk : k.Fits t) (sent : List Bool) : (s.commit (k.run s.app t.clientId) sent).Inv := by
  cases k with
  | admitted ip => exact h.connectAdmitted _ ip sent
  | naming msg => exact h.handlerOK (h.task_lt ht) (registerName_ok msg) sent
  | stored name room message => exact h.handlerOK (h.task_lt ht) (broadcastSend_ok _ _ _) sent
  | releasing name room => exact h.disconnectRest _ _ name room sent

/-- What worker `w` runs when it returns from its task keeps the invariant. -/
theorem Inv.finishTask (h : s.Inv) {w : Nat} {t : Task} {p : ThreadPool Task}
    (hp : s.server.threadPool.finish w = some (t, p)) (clk : Clock) (sent : List Bool) :
    (System.commit { s with server := { s.server with threadPool := p }, paused := s.paused.erase w }
      (s.finishTask localTime w clk t) sent).Inv := by
  have hw := (ThreadPool.finish_eq hp).1
  have ht : t ∈ s.server.threadPool.started := h.running_started t (mem_running hw)
  have hr := h.release hp
  have ht' : t ∈ p.started := by simpa [(ThreadPool.history_finish hp).2.1] using ht
  unfold System.finishTask
  cases hk : s.paused.find? w with
  | some k =>
    obtain ⟨t', hw', hfit⟩ := h.paused_fits w k hk
    rw [hw] at hw'; cases hw'
    exact hr.resume ht' hfit sent
  | none => exact hr.runTask ht' clk sent

/-- A step of the transport alone keeps the invariant when the transport's own invariant holds
after it and the pool only grows. -/
theorem Inv.transport (h : s.Inv) {srv : IOCPServer} (hsrv : srv.Inv)
    (hx : ThreadPool.Extends s.server.threadPool srv.threadPool)
    (hnext : s.server.nextClientId ≤ srv.nextClientId)
    (hrun : srv.running = true → s.server.running = true) : ({ s with server := srv } : System).Inv where
  server := hsrv
  rooms := h.rooms
  all_public := h.all_public
  names_lt c hc := lt_of_lt_of_le (h.names_lt c hc) hnext
  running_started := by simpa [ThreadPool.running, hx.workers, hx.started] using h.running_started
  paused_fits := by simpa [hx.workers] using h.paused_fits
  admitted_member c ip hc hs := h.admitted_member c ip hc (by simpa [hx.started] using hs)
  live hd := hx.stop ▸ h.live hd
  torn_stopped hd := by
    cases hr : srv.running
    · rfl
    · simpa [h.torn_stopped hd] using hrun hr
  crashed_torn := h.crashed_torn

/-- The main loop's sweep disconnects only clients of the table. -/
theorem Inv.sweep (h : s.Inv) (now : Int) (sent : List Bool) :
    (s.commit (sweep s.app s.server now) sent).Inv := by
  obtain ⟨hrooms, hnames, -, ⟨L, hL, hnL⟩, heff⟩ := sweep_spec s.app s.server now
  refine h.commit (fun e he => ?_) (hrooms ▸ h.rooms) (hrooms ▸ h.all_public)
    (fun c hc => h.names_lt c (hnames ▸ hc)) (fun c ip hc hs => ?_) sent
  · cases e with
    | send => trivial
    | disconnect d =>
      obtain ⟨info, hinfo, rfl⟩ := heff d he
      simp only [getAllClients, List.mem_map] at hinfo
      obtain ⟨⟨k, v⟩, hkv, rfl⟩ := hinfo
      have hfind := UnorderedMap.find?_of_mem _ hkv
      show v.id < s.server.nextClientId
      rw [h.server.info_id k v hfind]
      exact h.server.clients_lt k (by simp [hfind])
  · rw [hL, List.mem_append] at hc
    rcases hc with hc | hc
    · exact hrooms ▸ h.admitted_member c ip hc hs
    · exact absurd hc (hnL c ip)

/-- **Every step keeps the invariant.** -/
theorem Inv.step (h : s.Inv) {a : Action} (hs : s.step localTime a = some s') : s'.Inv := by
  obtain ⟨-, hcase⟩ := step_cases hs
  rcases hcase with ⟨sock, peer, assoc, -, -, -, rfl⟩ | ⟨sock, rp, now, -, hd, rfl⟩ |
    ⟨i, io, r, rp, now, hio, hr, -, rfl⟩ | ⟨w, p, hp, rfl⟩ | ⟨w, clk, t, a, k, hw, -, -, hb, rfl⟩ |
    ⟨w, clk, sent, t, p, hp, -, rfl⟩ | ⟨now, -, rfl⟩ | rfl | ⟨hr, -, rfl⟩ | ⟨htd, rfl⟩
  · -- `accept()` and the association
    obtain ⟨hx, hnext⟩ := extends_acceptSocket s.server sock peer assoc
    exact h.transport (h.server.acceptSocket _ _ _) (hx ▸ .refl _) hnext.ge
      (by unfold acceptSocket; split <;> exact id)
  · -- the rest of `HandleAccept`, also after `Stop`
    obtain ⟨hx, hnext⟩ := extends_handleAccept s.server sock rp now
    exact h.transport (h.server.handleAccept (h.live hd) _ _ _) hx hnext
      (by simp [handleAccept, IOCPServer.postRead]; split <;> simp [enqueue])
  · -- a completion
    have hmem := List.getElem?_mem hio
    let srv := { s.server with pending := s.server.pending.eraseIdx i }
    obtain ⟨hx, hnext⟩ := extends_complete srv io r rp now
    exact h.transport ((h.server.erasePending i).complete hr (h.server.pending_lt io hmem)
      (h.server.pending_connected io hmem) _ _ _) hx hnext.ge fun _ => hr
  · exact h.take hp
  · exact h.pause hw hb
  · exact h.finishTask hp clk sent
  · exact h.sweep now []
  · obtain ⟨hp, hnext⟩ := extends_stop s.server
    exact h.transport h.server.stop (hp ▸ .refl _) hnext.ge (by unfold IOCPServer.stop; split <;> simp_all)
  · exact ⟨{ h.server with stopped := fun _ => hr }, h.rooms, h.all_public, h.names_lt,
      h.running_started, h.paused_fits, h.admitted_member, nofun, fun _ => hr, fun _ => rfl⟩
  · exact { h with crashed_torn := fun _ => htd }

/-- **Every run from any state with the invariant keeps it.** -/
theorem Inv.run (h : s.Inv) {acts : List Action} (hr : s.run localTime acts = some s') :
    s'.Inv :=
  run_preserves (fun hs h => Inv.step h hs) hr h

/-- What a step does to the application state: nothing, the first part of a handler up to its
stop, a handler run whole, the rest of a handler from where it stopped, or the main loop's
sweep. -/
theorem step_app {a : Action} (hs : s.step localTime a = some s') :
    s'.app = s.app ∨ (∃ clk t k, beginTask localTime s.app s.server clk t = .stopped s'.app k) ∨
      (∃ clk t, s'.app = (runTask localTime s.app s.server clk t).1) ∨
      (∃ (c : Int) (k : Resume), s'.app = (k.run s.app c).1) ∨
      ∃ now, s'.app = (sweep s.app s.server now).1 := by
  obtain ⟨-, hcase⟩ := step_cases hs
  rcases hcase with ⟨-, -, -, -, -, -, rfl⟩ | ⟨-, -, -, -, -, rfl⟩ | ⟨-, -, -, -, -, -, -, -, rfl⟩ |
    ⟨-, -, -, rfl⟩ | ⟨-, clk, t, a, k, -, -, -, hb, rfl⟩ | ⟨w, clk, -, t, -, -, -, rfl⟩ |
    ⟨now, -, rfl⟩ | rfl | ⟨-, -, rfl⟩ | ⟨-, rfl⟩
  · exact .inl rfl
  · exact .inl rfl
  · exact .inl rfl
  · exact .inl rfl
  · exact .inr (.inl ⟨clk, t, k, hb⟩)
  · simp only [commit_app, finishTask]
    cases s.paused.find? w with
    | some k => exact .inr (.inr (.inr (.inl ⟨_, k, rfl⟩)))
    | none => exact .inr (.inr (.inl ⟨clk, t, rfl⟩))
  · exact .inr (.inr (.inr (.inr ⟨now, rfl⟩)))
  · exact .inl rfl
  · exact .inl rfl
  · exact .inl rfl

/-- A step only appends to the pool's history and to its started tasks, and keeps the
number of workers. -/
theorem step_grows {a : Action} (hs : s.step localTime a = some s') :
    s.server.threadPool.Grows s'.server.threadPool := by
  obtain ⟨-, hcase⟩ := step_cases hs
  rcases hcase with ⟨sock, peer, assoc, -, -, -, rfl⟩ | ⟨sock, rp, now, -, -, rfl⟩ |
    ⟨i, io, r, rp, now, -, -, -, rfl⟩ | ⟨w, p, hp, rfl⟩ | ⟨-, -, -, -, -, -, -, -, -, rfl⟩ |
    ⟨w, clk, sent, t, p, hp, -, rfl⟩ | ⟨now, -, rfl⟩ | rfl | ⟨-, -, rfl⟩ | ⟨-, rfl⟩
  · exact (extends_acceptSocket s.server sock peer assoc).1 ▸ .refl _
  · exact (extends_handleAccept s.server sock rp now).1.grows
  · exact (extends_complete { s.server with pending := s.server.pending.eraseIdx i } io r rp
      now).1.grows
  · obtain ⟨hh, -, hw⟩ := ThreadPool.history_take hp
    obtain ⟨t, ts, -, -, rfl⟩ := ThreadPool.take_eq hp
    exact ⟨hh ▸ List.prefix_refl _, List.prefix_append _ _, hw⟩
  · exact .refl _
  · obtain ⟨hh, hst, -, hw⟩ := ThreadPool.history_finish hp
    exact (ThreadPool.Grows.mk (hh ▸ List.prefix_refl _) (hst ▸ List.prefix_refl _) hw).trans
      (extends_applyAll { s.server with threadPool := p } _ _).1.grows
  · exact (extends_applyAll s.server _ _).1.grows
  · exact (extends_stop s.server).1 ▸ .refl _
  · exact ⟨List.prefix_refl _, List.prefix_refl _, rfl⟩
  · exact .refl _

theorem run_grows {acts : List Action} (hr : s.run localTime acts = some s') :
    s.server.threadPool.Grows s'.server.threadPool :=
  run_rel (R := fun s s' => s.server.threadPool.Grows s'.server.threadPool) (fun _ => .refl _)
    .trans step_grows hr

/-- What a step does to the application state, with the task a handler runs taken from the
queue, and a handler resumed only where its task allows. -/
theorem Inv.step_app (h : s.Inv) {a : Action} (hs : s.step localTime a = some s') :
    s'.app = s.app ∨
      (∃ clk t k, t ∈ s.server.threadPool.started ∧
        beginTask localTime s.app s.server clk t = .stopped s'.app k) ∨
      (∃ clk t, t ∈ s.server.threadPool.started ∧
        s'.app = (ChatServer.runTask localTime s.app s.server clk t).1) ∨
      (∃ (t : Task) (k : Resume), t ∈ s.server.threadPool.started ∧ k.Fits t ∧
        s'.app = (k.run s.app t.clientId).1) ∨
      ∃ now, s'.app = (ChatServer.sweep s.app s.server now).1 := by
  obtain ⟨-, hcase⟩ := step_cases hs
  rcases hcase with ⟨-, -, -, -, -, -, rfl⟩ | ⟨-, -, -, -, -, rfl⟩ | ⟨-, -, -, -, -, -, -, -, rfl⟩ |
    ⟨-, -, -, rfl⟩ | ⟨w, clk, t, a, k, hw, -, -, hb, rfl⟩ | ⟨w, clk, -, t, p, hp, -, rfl⟩ |
    ⟨now, -, rfl⟩ | rfl | ⟨-, -, rfl⟩ | ⟨-, rfl⟩
  · exact .inl rfl
  · exact .inl rfl
  · exact .inl rfl
  · exact .inl rfl
  · exact .inr (.inl ⟨clk, t, k, h.running_started t (mem_running hw), hb⟩)
  · have hw := (ThreadPool.finish_eq hp).1
    have ht := h.running_started t (mem_running hw)
    simp only [commit_app, System.finishTask]
    cases hk : s.paused.find? w with
    | some k =>
      obtain ⟨t', hw', hfit⟩ := h.paused_fits w k hk
      rw [hw] at hw'; cases hw'
      exact .inr (.inr (.inr (.inl ⟨t, k, ht, hfit, rfl⟩)))
    | none => exact .inr (.inr (.inl ⟨clk, t, ht, rfl⟩))
  · exact .inr (.inr (.inr (.inr ⟨now, rfl⟩)))
  · exact .inl rfl
  · exact .inl rfl
  · exact .inl rfl

/-- **A relation between application states that the sweep and every part of every handler
establish, except the handlers of some tasks, holds between the ends of every run in which no
such task is taken.** -/
theorem Inv.run_app {P : App → App → Prop} (refl : ∀ a, P a a)
    (trans : ∀ {a₁ a₂ a₃}, P a₁ a₂ → P a₂ a₃ → P a₁ a₃) (X : Task → Prop)
    (hsweep : ∀ a srv now, P a (ChatServer.sweep a srv now).1)
    (hbegin : ∀ a srv clk t, ¬X t → (beginTask localTime a srv clk t).Holds P a)
    (hrest : ∀ a t (k : Resume), ¬X t → k.Fits t → P a (k.run a t.clientId).1)
    (h : s.Inv) {acts : List Action} (hr : s.run localTime acts = some s')
    (hx : ∀ t ∈ s'.server.threadPool.started, ¬X t) : P s.app s'.app := by
  have htask : ∀ a srv clk t, ¬X t → P a (ChatServer.runTask localTime a srv clk t).1 :=
    fun a srv clk t hX => runTask_holds localTime trans (hbegin a srv clk t hX)
      fun a' k hk => hrest a' t k hX (beginTask_fits localTime hk)
  have := run_rel (s := s) (R := fun s₁ s₂ => s₁.Inv → s₂.Inv ∧
      s₁.server.threadPool.started <+: s₂.server.threadPool.started ∧
      ((∀ t ∈ s₂.server.threadPool.started, ¬X t) → P s₁.app s₂.app))
    (fun s h => ⟨h, List.prefix_refl _, fun _ => refl _⟩)
    (fun h₁₂ h₂₃ h₁ => by
      obtain ⟨h₂, hp₁₂, hP₁₂⟩ := h₁₂ h₁
      obtain ⟨h₃, hp₂₃, hP₂₃⟩ := h₂₃ h₂
      exact ⟨h₃, hp₁₂.trans hp₂₃, fun hx =>
        trans (hP₁₂ fun t ht => hx t (hp₂₃.subset ht)) (hP₂₃ hx)⟩)
    (fun {s₁ s₂ a} hs h₁ => ⟨h₁.step hs, (step_grows hs).started, fun hx => by
      have hX : ∀ t ∈ s₁.server.threadPool.started, ¬X t :=
        fun t ht => hx t ((step_grows hs).started.subset ht)
      rcases h₁.step_app hs with he | ⟨clk, t, k, ht, hb⟩ | ⟨clk, t, ht, he⟩ |
        ⟨t, k, ht, hfit, he⟩ | ⟨now, he⟩
      · rw [he]; exact refl _
      · have := hbegin s₁.app s₁.server clk t (hX t ht)
        rwa [hb] at this
      · rw [he]; exact htask _ _ _ _ (hX t ht)
      · rw [he]; exact hrest _ _ _ (hX t ht) hfit
      · rw [he]; exact hsweep _ _ _⟩) hr
  exact (this h).2.2 hx

/-! ## A server to run scenarios on -/

/-- A local clock that always reads noon of 8 November 2026. -/
def noonClock : Int → Tm := fun _ => ⟨126, 10, 8, 12, 0, 0⟩

/-- A disk with no files that opens every path. -/
def emptyDisk : FileSystem := ⟨fun _ => 0, [], fun _ => true, fun _ => true⟩

/-- `main` with its own configuration, a one-worker pool and an empty disk. -/
def boot : System := init noonClock mainConnConfig 1 1 emptyDisk 0

/-- `main` with its own configuration, a pool of two workers and an empty disk. -/
def pairBoot : System := init noonClock mainConnConfig 2 1 emptyDisk 0

end System

end ChatServer
