import ChatServer.Proof.Lifecycle

/-!
# Admission

`HandleConnect` calls `OnConnect` only after `AllowConnection` saw `current_connections` below
`max_total_connections`; `OnDisconnect` decrements the count only after its test saw it above
zero. Neither pair of calls is atomic, though: `AllowConnection` and `OnConnect` take the
controller's lock one at a time, and `OnDisconnect` tests and decrements the atomic count in
two operations. So every worker can pass a check before any of them acts on it: the count
stays at least zero less one for each worker but the first, and at most the maximum plus one
for each worker but the first, two bounds that two workers reach. The invariant behind it
counts the workers stopped between the check and the action (`admittedPaused`,
`releasingPaused`): each will act, and each passed its check. Nor does the count follow the
admitted clients: a refused client is disconnected, and its `HandleDisconnect` calls
`OnDisconnect` all the same, which frees the slot of a client still connected.

* `connection_count_bounded`: the count stays between zero less, and the maximum plus, the
  number of workers less one, so between zero and the maximum with one worker.
* `admitted_beyond_maximum`: with room for one client, two admitted clients are connected at
  once.
-/

namespace ChatServer

namespace UnorderedMap

variable {K V : Type} [DecidableEq K] (m : UnorderedMap K V) (p : K × V → Bool)

theorem countP_set_of_find?_eq_none {k : K} (hk : m.find? k = none) (v : V) :
    (m.set k v).entries.countP p = m.entries.countP p + if p (k, v) then 1 else 0 := by
  have hmem : k ∉ m.entries.map Prod.fst := by rw [mem_keys_iff, hk]; exact nofun
  simp only [set, hmem, dite_false, List.countP_append, List.countP_cons, List.countP_nil,
    Nat.zero_add]

theorem countP_erase_le (k : K) : (m.erase k).entries.countP p ≤ m.entries.countP p :=
  (List.filter_sublist _).countP_le p

theorem countP_erase_add_le {k : K} {v : V} (hk : m.find? k = some v) :
    (m.erase k).entries.countP p + (if p (k, v) then 1 else 0) ≤ m.entries.countP p := by
  have he : (m.erase k).entries = m.entries.filter fun e => decide (e.1 ≠ k) := rfl
  rw [he, List.countP_eq_countP_filter_add m.entries p fun e => decide (e.1 ≠ k)]
  have hmem : (k, v) ∈ m.entries.filter fun e => !decide (e.1 ≠ k) :=
    List.mem_filter.2 ⟨mem_of_find? hk, by simp⟩
  split
  · have := List.countP_pos_iff.2 ⟨_, hmem, ‹_›⟩
    show _ + 1 ≤ _ + _
    omega
  · exact Nat.add_le_add_left (Nat.zero_le _) _

end UnorderedMap

namespace ConnectionManager

@[simp] theorem onDisconnect_config (cm : ConnectionManager) : cm.onDisconnect.config = cm.config := by
  unfold onDisconnect; split <;> rfl

theorem onDisconnect_currentConnections (cm : ConnectionManager) :
    cm.onDisconnect.currentConnections =
      if 0 < cm.currentConnections then cm.currentConnections - 1 else cm.currentConnections := by
  unfold onDisconnect releaseConnection
  split <;> rfl

end ConnectionManager

/-- `HandleConnect` stopped after `AllowConnection` admitted its client. -/
def Resume.isAdmitted : Resume → Bool
  | .admitted _ => true
  | _ => false

/-- `HandleDisconnect` stopped between the test and the decrement of `OnDisconnect`. -/
def Resume.isReleasing : Resume → Bool
  | .releasing _ _ => true
  | _ => false

theorem handleConnect_config (a : App) (srv : IOCPServer) (c : Int) (sock : Socket) (now : Int) :
    (handleConnect a srv c sock now).1.connectionManager.config = a.connectionManager.config := by
  rw [handleConnect_eq]
  dsimp only
  split <;> simp [App.print, ConnectionManager.onConnect]

section Count

variable (localTime : Int → Tm) {a a' : App} {srv : IOCPServer} {clk : Clock} {t : Task}
  {k : Resume}

/-- Up to its stop a handler keeps the count and the configuration; it stops after admitting
only when `AllowConnection` saw the count below the maximum, and inside `OnDisconnect` only
when its test saw the count above zero. -/
theorem beginTask_count (h : beginTask localTime a srv clk t = .stopped a' k) :
    a'.connectionManager.currentConnections = a.connectionManager.currentConnections ∧
      a'.connectionManager.config = a.connectionManager.config ∧
      (k.isAdmitted → a.connectionManager.currentConnections <
        a.connectionManager.config.maxTotalConnections) ∧
      (k.isReleasing → 0 < a.connectionManager.currentConnections) := by
  cases t with
  | onConnect c sock =>
    rcases connectAllow_spec a srv c sock clk.steady with ⟨_, hd, -⟩ | ⟨cm, hs, hn, hcf, -, hlt⟩
    · rw [beginTask, hd] at h; cases h
    · rw [beginTask, hs] at h; cases h
      exact ⟨hn, hcf, fun _ => hlt, nofun⟩
  | onMessage c m =>
    have hok : AppStep c a a' := by
      have := messageBegin_ok localTime (a := a) (c := c) srv m clk
      rwa [show messageBegin localTime a srv c m clk = .stopped a' k from h] at this
    obtain ⟨-, ⟨hk, -⟩ | ⟨hk, -⟩⟩ := messageBegin_stopped localTime h <;>
      exact ⟨hok.conns, hok.config, by simp [hk, Resume.isAdmitted], by simp [hk, Resume.isReleasing]⟩
  | onDisconnect c =>
    rcases beginTask_stopped_eq localTime h with ⟨_, _, h, -⟩ | ⟨_, _, h, -⟩ | ⟨_, -, hpos, rfl, rfl⟩
    · cases h
    · cases h
    · exact ⟨rfl, rfl, nofun, fun _ => hpos⟩

/-- The rest of a handler from where it stopped keeps the configuration, counts one
connection exactly when `HandleConnect` stopped after admitting, and releases one exactly
when `HandleDisconnect` stopped inside `OnDisconnect`. -/
theorem resume_count (c : Int) (k : Resume) :
    (k.run a c).1.connectionManager.config = a.connectionManager.config ∧
      (k.run a c).1.connectionManager.currentConnections =
        a.connectionManager.currentConnections + (if k.isAdmitted then 1 else 0) -
          if k.isReleasing then 1 else 0 := by
  cases k with
  | admitted ip =>
    simp [Resume.run, Resume.isAdmitted, Resume.isReleasing, (connectAdmitted_spec a c ip).2.2.2.2,
      ConnectionManager.onConnect]
  | naming msg =>
    have h := (Resume.run_ok (c := c) (a := a) (k := .naming msg) nofun nofun).1
    simp [Resume.isAdmitted, Resume.isReleasing, h.conns, h.config]
  | stored name room message =>
    have h := (Resume.run_ok (c := c) (a := a) (k := .stored name room message) nofun nofun).1
    simp [Resume.isAdmitted, Resume.isReleasing, h.conns, h.config]
  | releasing name room =>
    simp [Resume.run, Resume.isAdmitted, Resume.isReleasing, disconnectRest, App.print,
      ConnectionManager.releaseConnection]

/-- A handler run whole keeps the configuration, lowers the count by at most one, only when it
was above zero, and raises it by at most one, only when it was below the maximum. -/
theorem runTask_count (t : Task) :
    (runTask localTime a srv clk t).1.connectionManager.config = a.connectionManager.config ∧
      (a.connectionManager.currentConnections ≤
          (runTask localTime a srv clk t).1.connectionManager.currentConnections ∨
        0 < a.connectionManager.currentConnections ∧
          (runTask localTime a srv clk t).1.connectionManager.currentConnections =
            a.connectionManager.currentConnections - 1) ∧
      ((runTask localTime a srv clk t).1.connectionManager.currentConnections ≤
          a.connectionManager.currentConnections ∨
        a.connectionManager.currentConnections < a.connectionManager.config.maxTotalConnections ∧
          (runTask localTime a srv clk t).1.connectionManager.currentConnections =
            a.connectionManager.currentConnections + 1) := by
  cases t with
  | onConnect c sock =>
    refine ⟨handleConnect_config a srv c sock clk.steady, ?_⟩
    simp only [runTask]
    rcases (handleConnect_spec a srv c sock clk.steady).2 with ⟨-, -, -, hn⟩ | ⟨-, -, -, hn, hlt⟩ <;>
      rw [hn]
    · exact ⟨.inl le_rfl, .inl le_rfl⟩
    · exact ⟨.inl (by omega), .inr ⟨hlt, rfl⟩⟩
  | onMessage c m =>
    have hstep := (handleMessage_ok localTime (a := a) (c := c) srv m clk).1
    simp only [runTask]
    rw [hstep.conns, hstep.config]
    exact ⟨rfl, .inl le_rfl, .inl le_rfl⟩
  | onDisconnect c =>
    simp only [runTask]
    rw [(handleDisconnect_spec a c).2.2.2.2, ConnectionManager.onDisconnect_config,
      ConnectionManager.onDisconnect_currentConnections]
    refine ⟨rfl, ?_, .inl ?_⟩ <;> split
    exacts [.inr ⟨‹_›, rfl⟩, .inl le_rfl, by omega, le_rfl]

end Count

namespace System

variable {localTime : Int → Tm} {s s' : System}

/-- The workers stopped in `HandleConnect` after `AllowConnection` admitted their client: each
will call `OnConnect`. -/
def admittedPaused (s : System) : Nat := s.paused.entries.countP fun e => e.2.isAdmitted

/-- The workers stopped between the test and the decrement of `OnDisconnect`: each will
decrement the count. -/
def releasingPaused (s : System) : Nat := s.paused.entries.countP fun e => e.2.isReleasing

/-- A worker that runs a task and is not stopped in it leaves fewer workers than the pool has
stopped, whatever they are stopped in. -/
theorem Inv.paused_length_lt (h : s.Inv) {w : Nat} {t : Task}
    (hw : s.server.threadPool.workers[w]? = some (some t)) (hp : s.paused.find? w = none)
    (q : Nat × Resume → Bool) :
    s.paused.entries.countP q + 1 ≤ s.server.threadPool.workers.length := by
  have hwlt := (List.getElem?_eq_some_iff.1 hw).1
  have hsub : s.paused.entries.map Prod.fst ⊆
      (List.range s.server.threadPool.workers.length).erase w := by
    intro w' hw'
    obtain ⟨k, hk⟩ := Option.isSome_iff_exists.1 ((UnorderedMap.mem_keys_iff _ _).1 hw')
    obtain ⟨t', hw'', -⟩ := h.paused_fits w' k hk
    have hne : w' ≠ w := by rintro rfl; simp [hp] at hk
    exact (List.mem_erase_of_ne hne).2 (List.mem_range.2 (List.getElem?_eq_some_iff.1 hw'').1)
  have hlen := (List.subperm_of_subset s.paused.nodup hsub).length_le
  rw [List.length_map, List.length_erase_of_mem (List.mem_range.2 hwlt), List.length_range] at hlen
  have := List.countP_le_length (p := q) (l := s.paused.entries)
  omega

/-- With the connections the stopped workers will release the count is at least zero less one
for each worker but the first, and with those they will count it is within the maximum plus
one for each worker but the first. -/
def Counted (s : System) : Prop :=
  (s.releasingPaused : Int) ≤
      s.app.connectionManager.currentConnections + (s.server.threadPool.workers.length - 1 : Int) ∧
    s.app.connectionManager.currentConnections + s.admittedPaused ≤
      s.app.connectionManager.config.maxTotalConnections +
        (s.server.threadPool.workers.length - 1 : Int)

theorem Counted.of_eq (h : s.Counted) (hcm : s'.app.connectionManager = s.app.connectionManager)
    (hp : s'.paused = s.paused)
    (hw : s'.server.threadPool.workers.length = s.server.threadPool.workers.length) :
    s'.Counted := by
  unfold Counted admittedPaused releasingPaused at *
  rwa [hcm, hp, hw]

/-- **Every step keeps the count within its bound.** -/
theorem Inv.step_counted (h : s.Inv) (hc : s.Counted) {a : Action}
    (hs : s.step localTime a = some s') : s'.Counted := by
  have hW := (step_grows hs).workers
  obtain ⟨-, hcase⟩ := step_cases hs
  rcases hcase with ⟨_, _, _, -, -, -, rfl⟩ | ⟨_, _, _, -, -, rfl⟩ | ⟨_, _, _, _, _, -, -, -, rfl⟩ |
    ⟨_, _, -, rfl⟩ | ⟨w, clk, t, a, k, hw, hp, -, hb, rfl⟩ | ⟨w, clk, sent, t, p, hp, -, rfl⟩ |
    ⟨now, -, rfl⟩ | rfl | ⟨-, -, rfl⟩ | ⟨-, rfl⟩
  · exact hc.of_eq rfl rfl hW
  · exact hc.of_eq rfl rfl hW
  · exact hc.of_eq rfl rfl hW
  · exact hc.of_eq rfl rfl hW
  · -- a worker stops in its handler
    obtain ⟨hn, hcf, hadm, hrel⟩ := beginTask_count localTime hb
    have hlt := h.paused_length_lt hw hp fun e => e.2.isAdmitted
    have hlt' := h.paused_length_lt hw hp fun e => e.2.isReleasing
    have hset : ((s.paused.set w k).entries.countP fun e => e.2.isAdmitted) =
        (s.paused.entries.countP fun e => e.2.isAdmitted) + if k.isAdmitted then 1 else 0 :=
      UnorderedMap.countP_set_of_find?_eq_none s.paused _ hp k
    have hset' : ((s.paused.set w k).entries.countP fun e => e.2.isReleasing) =
        (s.paused.entries.countP fun e => e.2.isReleasing) + if k.isReleasing then 1 else 0 :=
      UnorderedMap.countP_set_of_find?_eq_none s.paused _ hp k
    unfold Counted admittedPaused releasingPaused at hc ⊢
    dsimp only
    rw [hn, hcf, hset, hset']
    cases hka : k.isAdmitted <;> cases hkr : k.isReleasing <;>
      simp only [hka, hkr, if_true, if_false, true_implies] at hadm hrel ⊢ <;> push_cast <;> omega
  · -- a worker returns from its task
    have hw := (ThreadPool.finish_eq hp).1
    unfold Counted admittedPaused releasingPaused at hc ⊢
    rw [hW]
    simp only [commit_app, commit_paused]
    unfold System.finishTask
    cases hk : s.paused.find? w with
    | some k =>
      dsimp only
      obtain ⟨hcf, hn⟩ := resume_count (a := s.app) t.clientId k
      have hle : ((s.paused.erase w).entries.countP fun e => e.2.isAdmitted) +
          (if k.isAdmitted then 1 else 0) ≤ s.paused.entries.countP fun e => e.2.isAdmitted :=
        UnorderedMap.countP_erase_add_le s.paused _ hk
      have hle' : ((s.paused.erase w).entries.countP fun e => e.2.isReleasing) +
          (if k.isReleasing then 1 else 0) ≤ s.paused.entries.countP fun e => e.2.isReleasing :=
        UnorderedMap.countP_erase_add_le s.paused _ hk
      rw [hcf, hn]
      cases hka : k.isAdmitted <;> cases hkr : k.isReleasing <;>
        simp only [hka, hkr, if_true, if_false] at hle hle' ⊢ <;> push_cast <;> omega
    | none =>
      dsimp only
      obtain ⟨hcf, hlo, hhi⟩ := @runTask_count localTime s.app s.server clk t
      have hle := UnorderedMap.countP_erase_le s.paused (fun e => e.2.isAdmitted) w
      have hle' := UnorderedMap.countP_erase_le s.paused (fun e => e.2.isReleasing) w
      have hlt := h.paused_length_lt hw hk fun e => e.2.isAdmitted
      have hlt' := h.paused_length_lt hw hk fun e => e.2.isReleasing
      rw [hcf]
      constructor
      · rcases hlo with hlo | ⟨hpos, hlo⟩ <;> omega
      · rcases hhi with hhi | ⟨hmax, hhi⟩ <;> omega
  · obtain ⟨-, -, hcm, -⟩ := sweep_spec s.app s.server now
    exact hc.of_eq hcm rfl hW
  · exact hc.of_eq rfl rfl hW
  · exact hc.of_eq rfl rfl hW
  · exact hc.of_eq rfl rfl hW

theorem step_config {a : Action} (hs : s.step localTime a = some s') :
    s'.app.connectionManager.config = s.app.connectionManager.config := by
  rcases step_app hs with he | ⟨clk, t, k, hb⟩ | ⟨clk, t, he⟩ | ⟨c, k, he⟩ | ⟨now, he⟩
  · rw [he]
  · exact (beginTask_count localTime hb).2.1
  · rw [he]; exact (runTask_count localTime t).1
  · rw [he]; exact (resume_count c k).1
  · rw [he]; rfl

theorem run_config {acts : List Action} (hr : s.run localTime acts = some s') :
    s'.app.connectionManager.config = s.app.connectionManager.config :=
  run_rel (R := fun s s' => s'.app.connectionManager.config = s.app.connectionManager.config)
    (fun _ => rfl) (fun h₁ h₂ => h₂.trans h₁) step_config hr

/-- The ids `HandleConnect` admitted whose `HandleDisconnect` no worker has taken yet. -/
def admittedLive (s : System) : List Int :=
  (s.app.log.filterMap fun | .connected c _ => some c | _ => none).filter
    fun c => Task.onDisconnect c ∉ s.server.threadPool.started

/-- `main`'s configuration with room for one client. -/
def oneSlot : CMConfig := { mainConnConfig with maxTotalConnections := 1 }

/-- Client 1 is admitted; client 2 is refused, and its `HandleDisconnect` runs; client 3 is
admitted. -/
def refusedThenAdmitted : List Action :=
  [.accept 1 ⟨"10.0.0.1", 5000⟩ true, .register true 0, .take 0, .finish 0 ⟨0, 0⟩ [],
    .accept 2 ⟨"10.0.0.2", 5000⟩ true, .register true 0, .take 0, .finish 0 ⟨0, 0⟩ [], .take 0,
    .finish 0 ⟨0, 0⟩ [],
    .accept 3 ⟨"10.0.0.3", 5000⟩ true, .register true 0, .take 0, .finish 0 ⟨0, 0⟩ []]

theorem admitted_beyond_maximum :
    oneSlot.maxTotalConnections = 1 ∧
      ∃ s, (init noonClock oneSlot 1 1 emptyDisk 0).run noonClock refusedThenAdmitted = some s ∧
        admittedLive s = [1, 3] :=
  ⟨rfl, _, (Option.some_get (by decide)).symm, by decide⟩

theorem counted_init {lt : Int → Tm} {conn : CMConfig} {poolSize processors : Nat}
    {fs : FileSystem} {wall : Int} (hmax : 0 ≤ conn.maxTotalConnections) :
    (init lt conn poolSize processors fs wall).Counted := by
  simp only [Counted, admittedPaused, releasingPaused, init, IOCPServer.start, ThreadPool.new,
    List.length_replicate, ConnectionManager.new, UnorderedMap.empty, List.countP_nil]
  split_ifs <;> omega

/-- **The connection count stays within one less than zero and one more than
`max_total_connections` for each pool worker but the first** in every run of the server, so
between zero and the maximum with one worker: each worker can stop between `AllowConnection`
and `OnConnect`, and between the test and the decrement of `OnDisconnect`. -/
theorem connection_count_bounded {lt : Int → Tm} {conn : CMConfig} {poolSize processors : Nat}
    {fs : FileSystem} {wall : Int} {acts : List Action} {s : System}
    (hr : (init lt conn poolSize processors fs wall).run lt acts = some s)
    (hmax : 0 ≤ conn.maxTotalConnections) :
    -(s.server.threadPool.workers.length - 1 : Int) ≤ s.app.connectionManager.currentConnections ∧
      s.app.connectionManager.currentConnections ≤
        conn.maxTotalConnections + (s.server.threadPool.workers.length - 1 : Int) := by
  have hc := run_preserves (P := fun s => s.Inv ∧ s.Counted)
    (fun hs h => ⟨h.1.step hs, h.1.step_counted h.2 hs⟩) hr
    ⟨inv_init lt conn poolSize processors fs wall, counted_init hmax⟩
  obtain ⟨h₀, h₁⟩ := hc.2
  rw [run_config hr] at h₁
  exact ⟨by omega, by simp only [init, ConnectionManager.new] at h₁; omega⟩

/-- Two workers each stop in `HandleConnect` after `AllowConnection`, with room for one client:
both then count their client. -/
def bothAdmitted : List Action :=
  [.accept 1 ⟨"10.0.0.1", 5000⟩ true, .register true 0, .accept 2 ⟨"10.0.0.2", 5000⟩ true,
    .register true 0, .take 0, .take 1, .pause 0 ⟨0, 0⟩, .pause 1 ⟨0, 0⟩, .finish 0 ⟨0, 0⟩ [],
    .finish 1 ⟨0, 0⟩ []]

/-- With room for one client, client 1 is admitted and client 2 refused; client 1's read then
completes with no bytes. The two `HandleDisconnect`s both pass the test of `OnDisconnect`
before either decrements. -/
def bothReleased : List Action :=
  [.accept 1 ⟨"10.0.0.1", 5000⟩ true, .register true 0, .take 0, .finish 0 ⟨0, 0⟩ [],
    .accept 2 ⟨"10.0.0.2", 5000⟩ true, .register true 0, .take 0, .finish 0 ⟨0, 0⟩ [],
    .complete 0 (.ok "") true 0, .take 0, .take 1, .pause 0 ⟨0, 0⟩, .pause 1 ⟨0, 0⟩,
    .finish 0 ⟨0, 0⟩ [], .finish 1 ⟨0, 0⟩ []]

/-- On two workers both bounds are reached: the count goes to 2 with room for one client, and
to -1. -/
theorem connection_count_bounded_both :
    (∃ s, (init noonClock oneSlot 2 1 emptyDisk 0).run noonClock bothAdmitted = some s ∧
      0 ≤ oneSlot.maxTotalConnections ∧ s.app.connectionManager.currentConnections = 2 ∧
      s.server.threadPool.workers.length = 2 ∧
      -(s.server.threadPool.workers.length - 1 : Int) ≤ s.app.connectionManager.currentConnections ∧
      s.app.connectionManager.currentConnections ≤
        oneSlot.maxTotalConnections + (s.server.threadPool.workers.length - 1 : Int)) ∧
    ∃ s, (init noonClock oneSlot 2 1 emptyDisk 0).run noonClock bothReleased = some s ∧
      s.app.connectionManager.currentConnections = -1 ∧ s.server.threadPool.workers.length = 2 ∧
      -(s.server.threadPool.workers.length - 1 : Int) ≤ s.app.connectionManager.currentConnections ∧
      s.app.connectionManager.currentConnections ≤
        oneSlot.maxTotalConnections + (s.server.threadPool.workers.length - 1 : Int) :=
  have hr : (init noonClock oneSlot 2 1 emptyDisk 0).run noonClock bothAdmitted = some _ :=
    (Option.some_get (by decide)).symm
  have hr' : (init noonClock oneSlot 2 1 emptyDisk 0).run noonClock bothReleased = some _ :=
    (Option.some_get (by decide)).symm
  ⟨⟨_, hr, by decide, by decide, by decide, connection_count_bounded hr (by decide)⟩,
    ⟨_, hr', by decide, by decide, connection_count_bounded hr' (by decide)⟩⟩

end System

end ChatServer
