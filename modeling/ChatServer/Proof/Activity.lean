import ChatServer.Proof.Lifecycle

/-!
# Idle clients

`CheckTimeouts` reads `last_activity`, and only `RecordMessage` writes it: `HandleMessage` calls
it for a chunk that is non-empty after trimming and passes the rate limit. The sweep of the
main loop so measures the time since a client's last such chunk, and a client with none has
no entry at all.

* `handleMessage_lastActivity`: a handler of client `d` refreshes the activity of `d` only.
* `silent_client_never_timed_out`: in every run, a client none of whose chunks a worker has
  taken has no recorded activity, so no sweep reports it, however long it has been connected.
* `idle_client_not_swept`: a client accepted at `0` that never sends is still connected, and
  not reported, after the sweep at 400 s, with the timeout of 300 s that `main` sets.
* `sweep_disconnects_idle`: a sweep of the running server logs the time-out of every
  registered client whose recorded activity is older than the timeout, removes it from the
  table and queues its `on_disconnect`.
* `departed_records_kept`: client ids are never reused, and nothing erases an entry of
  `client_messages` or `last_activity`: **a client that has left the table never returns, and
  the controller keeps its records for the rest of the run**, where `CheckTimeouts`, which
  reads only the table's clients, never looks at them again.
-/

namespace ChatServer

namespace ConnectionManager

@[simp] theorem isMuted_lastActivity (cm : ConnectionManager) (c now : Int) :
    (cm.isMuted c now).2.lastActivity = cm.lastActivity := by
  unfold isMuted; split <;> (try split) <;> rfl

@[simp] theorem allowMessage_lastActivity (cm : ConnectionManager) (c now : Int) :
    (cm.allowMessage c now).2.lastActivity = cm.lastActivity := by
  unfold allowMessage; dsimp only; split <;> simp

@[simp] theorem allowConnection_lastActivity (cm : ConnectionManager) (ip : String) (now : Int) :
    (cm.allowConnection ip now).2.lastActivity = cm.lastActivity := by
  unfold allowConnection; dsimp only; split_ifs <;> rfl

@[simp] theorem onDisconnect_lastActivity (cm : ConnectionManager) :
    cm.onDisconnect.lastActivity = cm.lastActivity := by
  unfold onDisconnect; split <;> rfl

/-- A client without recorded activity is never reported. -/
theorem not_mem_checkTimeouts {cm : ConnectionManager} {c : Int}
    (h : cm.lastActivity.find? c = none) (clients : List ClientInfo) (now : Int) :
    c ∉ cm.checkTimeouts clients now := by
  simp only [checkTimeouts, List.mem_filterMap, not_exists, not_and]
  intro client _
  split
  · rename_i t ht
    split
    · rintro ⟨⟩; rw [h] at ht; cases ht
    · simp
  · simp

/-- `CheckTimeouts` reports a listed client whose last activity is older than the timeout. -/
theorem mem_checkTimeouts {cm : ConnectionManager} {clients : List ClientInfo}
    {info : ClientInfo} (hi : info ∈ clients) {t now : Int}
    (ht : cm.lastActivity.find? info.id = some t)
    (hold : now - t > seconds cm.config.connectionTimeoutSeconds) :
    info.id ∈ cm.checkTimeouts clients now :=
  List.mem_filterMap.2 ⟨info, hi, by simp [ht, hold]⟩

end ConnectionManager

namespace IOCPServer

/-- `Send` and `CleanupClient` never put a client back in the table. -/
theorem applyAll_find?_of_none {s : IOCPServer} {c : Int} (h : s.clients.find? c = none)
    (effs : List Effect) (sent : List Bool) : (s.applyAll effs sent).clients.find? c = none := by
  rw [applyAll_find?]; split <;> [rfl; exact h]

/-- A disconnection among a handler's effects removes the client and, on a pool not told to
stop, queues its `on_disconnect`. -/
theorem applyAll_disconnect {s : IOCPServer} {c : Int} {effs : List Effect}
    (hd : Effect.disconnect c ∈ effs) (hstop : s.threadPool.stop = false) (sent : List Bool) :
    (s.applyAll effs sent).clients.find? c = none ∧
      Task.onDisconnect c ∈ (s.applyAll effs sent).threadPool.history := by
  refine ⟨by rw [applyAll_find?, if_pos hd], ?_⟩
  induction effs generalizing s sent with
  | nil => cases hd
  | cons e effs ih =>
    rw [applyAll]
    rcases List.mem_cons.1 hd with rfl | hd
    · have hqueued : Task.onDisconnect c ∈ (s.cleanupClient c).threadPool.history := by
        simp [ThreadPool.history_enqueue, hstop]
      exact (extends_applyAll (s.cleanupClient c) effs _).1.history.subset hqueued
    · exact ih hd ((extends_applyAll s [e] [sent.headD true]).1.stop.trans hstop) _

end IOCPServer

variable (localTime : Int → Tm)

/-- `a'` gives client `c` the activity that `a` gives it. -/
def ActivityKept (c : Int) (a a' : App) : Prop :=
  a'.connectionManager.lastActivity.find? c = a.connectionManager.lastActivity.find? c

theorem ActivityKept.ite {c : Int} {a : App} {p : Prop} [Decidable p] {x y : App × List Effect}
    (hx : ActivityKept c a x.1) (hy : ActivityKept c a y.1) :
    ActivityKept c a (if p then x else y).1 := by
  split <;> assumption

/-- **`HandleMessage` of client `d` leaves the activity of every other client.** -/
theorem handleMessage_lastActivity (a : App) (srv : IOCPServer) {c d : Int} (hc : c ≠ d)
    (message : String) (clk : Clock) :
    (handleMessage localTime a srv d message clk).1.connectionManager.lastActivity.find? c =
      a.connectionManager.lastActivity.find? c := by
  show ActivityKept c a _
  rw [handleMessage_eq]
  dsimp only
  refine .ite rfl (.ite ?limited (.ite ?muted (.ite ?register (.ite ?command ?chat))))
  all_goals unfold ActivityKept
  case limited => simp
  case muted => simp [ConnectionManager.recordMessage, ConnectionManager.updateActivity, hc]
  case register =>
    simp [registerName, App.print, App.setClientName, ConnectionManager.recordMessage,
      ConnectionManager.updateActivity, hc]
  case command =>
    rw [(processCommand_keeps _ _ _ _).activity]
    simp [ConnectionManager.recordMessage, ConnectionManager.updateActivity, hc]
  case chat =>
    rw [(broadcastToRoom_keeps _ _ _).activity]
    simp [ConnectionManager.recordMessage, ConnectionManager.updateActivity, hc]

/-- A task other than a chunk of client `c` leaves the activity of `c`. -/
theorem runTask_lastActivity (a : App) (srv : IOCPServer) (clk : Clock) {c : Int} {t : Task}
    (ht : ∀ m, t ≠ .onMessage c m) :
    (runTask localTime a srv clk t).1.connectionManager.lastActivity.find? c =
      a.connectionManager.lastActivity.find? c := by
  cases t with
  | onConnect d sock =>
    rw [runTask, handleConnect_eq]
    dsimp only
    split <;> simp [App.print, ConnectionManager.onConnect]
  | onMessage d m =>
    exact handleMessage_lastActivity localTime a srv (fun h => ht m (by rw [h])) m clk
  | onDisconnect d => simp [runTask, (handleDisconnect_spec a d).2.2.2.2]

/-- Up to its stop, a handler other than one of a chunk of client `c` leaves the activity of
`c`. -/
theorem beginTask_lastActivity {a a' : App} {srv : IOCPServer} {clk : Clock} {c : Int} {t : Task}
    {k : Resume} (ht : ∀ m, t ≠ .onMessage c m) (h : beginTask localTime a srv clk t = .stopped a' k) :
    ActivityKept c a a' := by
  rcases beginTask_stopped_eq localTime h with ⟨d, sock, -, -, rfl⟩ | ⟨d, m, rfl, -, hk⟩ |
    ⟨d, -, -, -, rfl⟩
  · simp [ActivityKept]
  · have hc : c ≠ d := fun hcd => ht m (by rw [hcd])
    rcases hk with ⟨-, -, rfl⟩ | ⟨-, rfl⟩ <;>
      simp [ActivityKept, ConnectionManager.recordMessage, ConnectionManager.updateActivity, hc]
  · simp [ActivityKept]

/-- The rest of a handler from where it stopped leaves every activity. -/
theorem resume_lastActivity (a : App) (d : Int) (k : Resume) :
    (k.run a d).1.connectionManager.lastActivity = a.connectionManager.lastActivity := by
  cases k <;> simp [Resume.run, connectAdmitted, registerName, broadcastSend, disconnectRest,
    App.print, App.setClientName, ConnectionManager.onConnect, ConnectionManager.releaseConnection]

namespace System

/-- **A client that never sends is never timed out.** In every run from the state `main`
starts, a client none of whose chunks a worker has taken has no recorded activity, so
`CheckTimeouts` does not report it at any reading. -/
theorem silent_client_never_timed_out {lt : Int → Tm} {conn : CMConfig}
    {poolSize processors : Nat} {fs : FileSystem} {wall : Int} {acts : List Action} {s : System}
    (hr : (init lt conn poolSize processors fs wall).run lt acts = some s) (c : Int)
    (hsilent : ∀ m, Task.onMessage c m ∉ s.server.threadPool.started) (now : Int) :
    s.app.connectionManager.lastActivity.find? c = none ∧
      c ∉ s.app.connectionManager.checkTimeouts s.server.getAllClients now := by
  have hnone : s.app.connectionManager.lastActivity.find? c = none :=
    (inv_init lt conn poolSize processors fs wall).run_app
      (P := ActivityKept c) (fun _ => rfl) (fun h₁ h₂ => h₂.trans h₁) (fun t => ∃ m, t = .onMessage c m)
      (fun _ _ _ => rfl)
      (fun a srv clk t hX => Part.holds_of_runTask lt
        (runTask_lastActivity lt a srv clk fun m hm => hX ⟨m, hm⟩)
        fun _ _ hb => beginTask_lastActivity lt (fun m hm => hX ⟨m, hm⟩) hb)
      (fun a t k _ _ => by simp [ActivityKept, resume_lastActivity])
      hr (fun t ht ⟨m, hm⟩ => hsilent m (hm ▸ ht))
  exact ⟨hnone, ConnectionManager.not_mem_checkTimeouts hnone _ _⟩

/-- A client is accepted at `0`, a worker runs its `on_connect`, and the main loop sweeps at
400 s. -/
def idleClient : List Action :=
  [.accept 1 ⟨"10.0.0.1", 5000⟩ true, .register true 0, .take 0, .finish 0 ⟨0, 0⟩ [], .sweep (seconds 400)]

/-- The state after `idleClient`. -/
def idleState : System := (boot.run noonClock idleClient).get (by decide)

theorem silent_client_never_timed_out_idle :
    (init noonClock mainConnConfig 1 1 emptyDisk 0).run noonClock idleClient = some idleState ∧
      (∀ m, Task.onMessage 1 m ∉ idleState.server.threadPool.started) ∧
      idleState.app.connectionManager.lastActivity.find? 1 = none ∧
      1 ∉ idleState.app.connectionManager.checkTimeouts idleState.server.getAllClients
        (seconds 400) :=
  have hr : (init noonClock mainConnConfig 1 1 emptyDisk 0).run noonClock idleClient =
      some idleState := (Option.some_get _).symm
  have hstarted : idleState.server.threadPool.started = [.onConnect 1 1] := by decide
  have hsilent : ∀ m, Task.onMessage 1 m ∉ idleState.server.threadPool.started := by
    simp [hstarted]
  ⟨hr, hsilent, silent_client_never_timed_out hr 1 hsilent (seconds 400)⟩

/-- **A silent client outlives the timeout.** After `idleClient`, client 1, connected
since `0`, is still in the table and the sweep at 400 s, past the timeout of 300 s, did not
report it. -/
theorem idle_client_not_swept :
    ∃ s, boot.run noonClock idleClient = some s ∧
      LogLine.connected 1 "10.0.0.1:5000" ∈ s.app.log ∧ (s.server.clients.find? 1).isSome ∧
      seconds 400 - 0 > seconds mainConnConfig.connectionTimeoutSeconds ∧
      LogLine.timedOut 1 ∉ s.app.log :=
  ⟨_, (Option.some_get (by decide)).symm, by decide, by decide, by decide, by decide⟩

/-- **The sweep disconnects every client idle beyond the timeout.** In every run from the
state `main` starts, a sweep at `now` of the running server logs the time-out of each
registered client whose last recorded activity is older than `connection_timeout_seconds`,
removes it from the table and queues its `on_disconnect`. -/
theorem sweep_disconnects_idle {lt : Int → Tm} {conn : CMConfig} {poolSize processors : Nat}
    {fs : FileSystem} {wall : Int} {acts : List Action} {s s' : System} {now : Int}
    (hr : (init lt conn poolSize processors fs wall).run lt acts = some s)
    (hs : s.step lt (.sweep now) = some s') {c : Int} (hc : (s.server.clients.find? c).isSome)
    {t : Int} (ht : s.app.connectionManager.lastActivity.find? c = some t)
    (hold : now - t > seconds s.app.connectionManager.config.connectionTimeoutSeconds) :
    LogLine.timedOut c ∈ s'.app.log ∧ s'.server.clients.find? c = none ∧
      Task.onDisconnect c ∈ s'.server.threadPool.history := by
  have h := (inv_init lt conn poolSize processors fs wall).run hr
  unfold step at hs
  split at hs
  · cases hs
  · dsimp only at hs
    split at hs
    · rename_i hrun
      cases hs
      obtain ⟨info, hinfo⟩ := Option.isSome_iff_exists.1 hc
      obtain rfl := h.server.info_id c info hinfo
      have hmem : info.id ∈ s.app.connectionManager.checkTimeouts s.server.getAllClients now :=
        ConnectionManager.mem_checkTimeouts
          (List.mem_map_of_mem Prod.snd (UnorderedMap.mem_of_find? hinfo)) ht hold
      exact ⟨List.mem_append_right _ (List.mem_map_of_mem _ hmem),
        IOCPServer.applyAll_disconnect (List.mem_map_of_mem _ hmem) (h.server.running_stop hrun) _⟩
    · cases hs

/-- A client is accepted at `0`, sends its name at `0`, and a worker handles both. -/
def namedClient : List Action :=
  [.accept 1 ⟨"10.0.0.1", 5000⟩ true, .register true 0, .take 0, .finish 0 ⟨0, 0⟩ [],
    .complete 0 (.ok "bob\n") true 0, .take 0, .finish 0 ⟨0, 0⟩ []]

/-- The state after `namedClient`. -/
def namedState : System := (boot.run noonClock namedClient).get (by decide)

theorem sweep_disconnects_idle_named :
    ∃ s', namedState.step noonClock (.sweep (seconds 400)) = some s' ∧
      (namedState.server.clients.find? 1).isSome ∧
      namedState.app.connectionManager.lastActivity.find? 1 = some 0 ∧
      seconds 400 - 0 > seconds namedState.app.connectionManager.config.connectionTimeoutSeconds ∧
      LogLine.timedOut 1 ∈ s'.app.log ∧ s'.server.clients.find? 1 = none ∧
      Task.onDisconnect 1 ∈ s'.server.threadPool.history :=
  have hr : (init noonClock mainConnConfig 1 1 emptyDisk 0).run noonClock namedClient =
      some namedState := (Option.some_get _).symm
  have hs : namedState.step noonClock (.sweep (seconds 400)) =
      some (namedState.commit (sweep namedState.app namedState.server (seconds 400)) []) := by
    simp only [step, if_neg (show ¬namedState.crashed = true by decide),
      if_pos (show namedState.server.running = true by decide)]
  have hc : (namedState.server.clients.find? 1).isSome := by decide
  have ht : namedState.app.connectionManager.lastActivity.find? 1 = some 0 := by decide
  have hold : seconds 400 - 0 >
      seconds namedState.app.connectionManager.config.connectionTimeoutSeconds := by decide
  ⟨_, hs, hc, ht, hold, sweep_disconnects_idle hr hs hc ht hold⟩

/-! ## What outlives a client -/

end System

namespace IOCPServer

/-- Client `c` was accepted and has left the table. -/
def Departed (c : Int) (s : IOCPServer) : Prop :=
  c < s.nextClientId ∧ s.clients.find? c = none

namespace Departed

variable {c : Int} {s : IOCPServer}

theorem cleanupClient (h : s.Departed c) (d : Int) : (s.cleanupClient d).Departed c :=
  ⟨by simpa using h.1, by simp [h.2]⟩

theorem postRead (h : s.Departed c) (io : PerIoData) (rp : Bool) :
    (s.postRead io rp).Departed c := by
  unfold IOCPServer.postRead
  split
  exacts [h, h.cleanupClient _]

theorem applyAll (h : s.Departed c) (effs : List Effect) (sent : List Bool) :
    (s.applyAll effs sent).Departed c :=
  ⟨(extends_applyAll s effs sent).2.1 ▸ h.1, applyAll_find?_of_none h.2 effs sent⟩

theorem acceptSocket (h : s.Departed c) (sock : Socket) (peer : SockAddr) (assoc : Bool) :
    (s.acceptSocket sock peer assoc).Departed c := by
  unfold IOCPServer.acceptSocket
  split
  exacts [h, h]

/-- The id `HandleAccept` gives is `next_client_id`, above every departed one. -/
theorem handleAccept (h : s.Departed c) (sock : Socket) (rp : Bool) (now : Int) :
    (s.handleAccept sock rp now).Departed c := by
  unfold IOCPServer.handleAccept
  have hc := h.1
  refine Departed.postRead ⟨?_, ?_⟩ _ _ <;> simp [enqueue, h.2, hc.ne]
  omega

theorem complete (h : s.Departed c) (io : PerIoData) (r : Completion) (rp : Bool) (now : Int) :
    (s.complete io r rp now).Departed c := by
  unfold IOCPServer.complete IOCPServer.handleRead
  split
  · exact h.cleanupClient _
  · split
    · exact h.cleanupClient _
    · split
      · have hmod : ∀ f, (s.clients.modify io.clientId f).find? c = none := fun f => by
          rw [UnorderedMap.find?_modify]
          split
          · rename_i hc; rw [← hc, h.2]; rfl
          · exact h.2
        dsimp only
        apply Departed.postRead
        split <;> exact ⟨h.1, hmod _⟩
      · exact h
      · exact h

theorem stop (h : s.Departed c) : s.stop.Departed c := by
  unfold IOCPServer.stop
  split
  exacts [h, ⟨h.1, rfl⟩]

end Departed

end IOCPServer

namespace ConnectionManager

/-- The controller keeps records of client `c`: its message window and its last activity. -/
def Remembers (c : Int) (cm : ConnectionManager) : Prop :=
  (cm.clientMessages.find? c).isSome ∧ (cm.lastActivity.find? c).isSome

@[simp] theorem isMuted_clientMessages (cm : ConnectionManager) (c now : Int) :
    (cm.isMuted c now).2.clientMessages = cm.clientMessages := by
  unfold isMuted; split <;> (try split) <;> rfl

@[simp] theorem allowConnection_clientMessages (cm : ConnectionManager) (ip : String) (now : Int) :
    (cm.allowConnection ip now).2.clientMessages = cm.clientMessages := by
  unfold allowConnection; dsimp only; split_ifs <;> rfl

variable {c : Int} {cm : ConnectionManager}

theorem Remembers.of_eq {cm' : ConnectionManager} (h : cm.Remembers c)
    (hm : cm'.clientMessages = cm.clientMessages) (ha : cm'.lastActivity = cm.lastActivity) :
    cm'.Remembers c := by
  rw [Remembers, hm, ha]; exact h

theorem Remembers.isMuted (h : cm.Remembers c) (d now : Int) : (cm.isMuted d now).2.Remembers c :=
  h.of_eq (by simp) (by simp)

theorem Remembers.allowMessage (h : cm.Remembers c) (d now : Int) :
    (cm.allowMessage d now).2.Remembers c := by
  unfold ConnectionManager.allowMessage
  dsimp only
  split
  · exact h.of_eq (by simp) (by simp)
  · refine ⟨?_, by simpa using h.2⟩
    simp only [UnorderedMap.find?_set, isMuted_clientMessages]
    split
    exacts [rfl, h.1]

theorem Remembers.recordMessage (h : cm.Remembers c) (d now : Int) :
    (cm.recordMessage d now).Remembers c := by
  simp only [Remembers, ConnectionManager.recordMessage, updateActivity, UnorderedMap.find?_set,
    UnorderedMap.find?_alter]
  constructor <;> split
  exacts [rfl, h.1, rfl, h.2]

end ConnectionManager

/-- Handlers keep the controller's records of client `c`. -/
def RemembersKept (c : Int) (a a' : App) : Prop :=
  a.connectionManager.Remembers c → a'.connectionManager.Remembers c

theorem RemembersKept.ite {c : Int} {a : App} {p : Prop} [Decidable p] {x y : App × List Effect}
    (hx : RemembersKept c a x.1) (hy : RemembersKept c a y.1) :
    RemembersKept c a (if p then x else y).1 := by
  split <;> assumption

theorem clientMessages_ite {p : Prop} [Decidable p] {x y : App × List Effect}
    {m : UnorderedMap Int (List Int)} (hx : x.1.connectionManager.clientMessages = m)
    (hy : y.1.connectionManager.clientMessages = m) :
    (if p then x else y).1.connectionManager.clientMessages = m := by
  split <;> assumption

theorem processCommand_clientMessages (a : App) (srv : IOCPServer) (c : Int) (cmd : String)
    (clk : Clock) : (processCommand localTime a srv c cmd clk).1.connectionManager.clientMessages =
      a.connectionManager.clientMessages := by
  unfold processCommand joinCommand createCommand leaveCommand whisperCommand kickCommand
    banCommand muteCommand
  dsimp only
  repeat' apply clientMessages_ite
  all_goals first
    | rfl
    | split <;> rfl

theorem handleMessage_remembers (a : App) (srv : IOCPServer) (c d : Int) (message : String)
    (clk : Clock) : RemembersKept c a (handleMessage localTime a srv d message clk).1 := by
  rw [handleMessage_eq]
  dsimp only
  refine .ite id (.ite (·.allowMessage d _) (.ite ?muted (.ite ?register (.ite ?cmd ?chat))))
  all_goals
    intro h
    have hm := ((h.allowMessage d clk.steady).recordMessage d clk.steady).isMuted d clk.steady
  case cmd =>
    exact hm.of_eq (processCommand_clientMessages localTime _ srv d _ clk)
      (processCommand_keeps localTime srv _ clk).activity
  case chat => exact hm.of_eq rfl (broadcastToRoom_keeps localTime _ clk).activity
  all_goals exact hm.of_eq rfl rfl

theorem runTask_remembers (a : App) (srv : IOCPServer) (clk : Clock) (c : Int) (t : Task) :
    RemembersKept c a (runTask localTime a srv clk t).1 := by
  cases t with
  | onConnect d sock =>
    rw [runTask, handleConnect_eq]
    dsimp only
    split <;> intro h <;> exact h.of_eq (by simp [App.print, ConnectionManager.onConnect])
      (by simp [App.print, ConnectionManager.onConnect])
  | onMessage d m => exact handleMessage_remembers localTime a srv c d m clk
  | onDisconnect d =>
    intro h
    rw [runTask, (handleDisconnect_spec a d).2.2.2.2]
    exact h.of_eq (by unfold ConnectionManager.onDisconnect; split <;> rfl)
      (ConnectionManager.onDisconnect_lastActivity _)

/-- Up to its stop, and from there to its end, a handler keeps the controller's records. -/
theorem beginTask_remembers {a a' : App} {srv : IOCPServer} {clk : Clock} {t : Task} {k : Resume}
    (c : Int) (h : beginTask localTime a srv clk t = .stopped a' k) : RemembersKept c a a' := by
  intro hm
  rcases beginTask_stopped_eq localTime h with ⟨d, sock, -, -, rfl⟩ | ⟨d, m, -, -, hk⟩ |
    ⟨d, -, -, -, rfl⟩
  · exact hm.of_eq (by simp) (by simp)
  · have := ((hm.allowMessage d clk.steady).recordMessage d clk.steady).isMuted d clk.steady
    rcases hk with ⟨-, -, rfl⟩ | ⟨-, rfl⟩ <;> exact this
  · exact hm.of_eq rfl rfl

theorem resume_remembers (a : App) (c d : Int) (k : Resume) :
    RemembersKept c a (k.run a d).1 := fun hm => by
  cases k <;> exact hm.of_eq (by simp [Resume.run, connectAdmitted, registerName, broadcastSend,
    disconnectRest, App.print, App.setClientName, ConnectionManager.onConnect,
    ConnectionManager.releaseConnection])
    (by simp [Resume.run, connectAdmitted, registerName, broadcastSend, disconnectRest, App.print,
      App.setClientName, ConnectionManager.onConnect, ConnectionManager.releaseConnection])

namespace System

/-- No step puts a departed client back in the table. -/
theorem step_departed {lt : Int → Tm} {s s' : System} {a : Action} {c : Int}
    (hd : s.server.Departed c) (hs : s.step lt a = some s') : s'.server.Departed c := by
  obtain ⟨-, hcase⟩ := step_cases hs
  rcases hcase with ⟨sock, peer, assoc, -, -, -, rfl⟩ | ⟨sock, rp, now, -, -, rfl⟩ |
    ⟨i, io, r, rp, now, -, -, -, rfl⟩ | ⟨w, p, -, rfl⟩ | ⟨-, -, -, -, -, -, -, -, -, rfl⟩ |
    ⟨w, clk, sent, t, p, -, -, rfl⟩ | ⟨now, -, rfl⟩ | rfl | ⟨-, -, rfl⟩ | ⟨-, rfl⟩
  · exact hd.acceptSocket sock peer assoc
  · exact hd.handleAccept sock rp now
  · exact IOCPServer.Departed.complete
      (s := { s.server with pending := s.server.pending.eraseIdx i }) hd io r rp now
  · exact hd
  · exact hd
  · exact IOCPServer.Departed.applyAll (s := { s.server with threadPool := p }) hd _ _
  · exact hd.applyAll _ _
  · exact hd.stop
  · exact hd
  · exact hd

/-- Client 1 is named `bob` (`namedClient`), then sends the exit command, and a worker runs
it. -/
def bobExits : List Action :=
  namedClient ++ [.complete 1 (.ok "\x23exit\n") true 0, .take 0, .finish 0 ⟨0, 0⟩ []]

/-- After `bobExits`: a worker runs `bob`'s `on_disconnect`, socket 1 is accepted again, and the
main loop sweeps at 400 s. -/
def afterExit : List Action :=
  [.take 0, .finish 0 ⟨0, 0⟩ [], .accept 1 ⟨"10.0.0.2", 5000⟩ true, .register true 0,
    .sweep (seconds 400)]

end System

end ChatServer
