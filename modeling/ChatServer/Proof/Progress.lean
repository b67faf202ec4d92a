import ChatServer.Proof.Lifecycle
import ChatServer.Proof.Pool
import Mathlib.Algebra.BigOperators.Group.List

/-!
# The workers drain the pool

A worker takes a task, may stop in its handler, and returns from it, and a handler may queue
more work: each `DisconnectClient` it asks goes through `CleanupClient`, which enqueues an
`on_disconnect`. Every handler asks at most one disconnection, and `HandleDisconnect` and the
rest of a handler from where it stopped none, so the work left in the pool counts three steps
for a queued `on_disconnect` and six for any other queued task, one less for a running one
and one less again for a worker stopped in its handler (`System.work`). Every step of a worker
lowers it, feedback included.

This holds until `main` tears its components down. After that, `~ThreadPool` lets the workers
run the tasks still queued, on the globals `main` has reset: the first handler a worker runs,
or returns from, crashes the process.

* `runTask_disconnects`, `resume_disconnects`: a handler asks at most one disconnection,
  `HandleDisconnect` and the rest of a handler from where it stopped none.
* `work_step`: before the teardown, every step of a worker lowers the work left in the pool.
* `workers_drain_pool`: in every run, until the teardown, **the workers alone can empty the
  queue and return from every task**, and then every chunk received so far has been handled;
  whatever they do, they make at most as many steps as the work left. After the teardown, a
  worker that returns from its task crashes the process.
-/

namespace ChatServer

/-! ## The disconnections a handler asks -/

/-- A `DisconnectClient` effect. -/
def Effect.isDisconnect : Effect → Bool
  | .disconnect _ => true
  | .send _ _ => false

theorem countP_isDisconnect_eq_zero {effs : List Effect} (h : ∀ d, Effect.disconnect d ∉ effs) :
    effs.countP Effect.isDisconnect = 0 :=
  List.countP_eq_zero.2 fun e he => by
    cases e with
    | send => simp [Effect.isDisconnect]
    | disconnect d => exact absurd he (h d)

@[simp] theorem countP_sendToClient (c : Int) (m : String) :
    (sendToClient c m).countP Effect.isDisconnect = 0 :=
  countP_isDisconnect_eq_zero (disconnect_not_mem_sendToClient · c m)

@[simp] theorem countP_sendToAll (ids : List Int) (m : String) :
    (sendToAll ids m).countP Effect.isDisconnect = 0 :=
  countP_isDisconnect_eq_zero (disconnect_not_mem_sendToAll · ids m)

theorem countP_le_ite {p : Prop} [Decidable p] {x y : App × List Effect} {n : Nat}
    (hx : x.2.countP Effect.isDisconnect ≤ n) (hy : y.2.countP Effect.isDisconnect ≤ n) :
    (if p then x else y).2.countP Effect.isDisconnect ≤ n := by
  split <;> assumption

section Handlers

variable (localTime : Int → Tm) (a : App) (srv : IOCPServer) (c : Int)

/-- The exit command, `#kick` and `#ban` ask one disconnection; the other commands none. -/
theorem processCommand_disconnects (cmd : String) (clk : Clock) :
    (processCommand localTime a srv c cmd clk).2.countP Effect.isDisconnect ≤ 1 := by
  unfold processCommand
  dsimp only
  refine countP_le_ite (by simp [Effect.isDisconnect]) (countP_le_ite (by simp) (countP_le_ite
    (by simp) (countP_le_ite ?join (countP_le_ite ?create (countP_le_ite ?leave (countP_le_ite
    (by simp) (countP_le_ite ?whisper (countP_le_ite (by simp) (countP_le_ite ?kick
    (countP_le_ite ?ban (countP_le_ite ?mute (by simp))))))))))))
  case join =>
    unfold joinCommand; dsimp only
    refine countP_le_ite (by simp) (countP_le_ite (by simp) (countP_le_ite ?_ (by simp)))
    split <;> simp
  case create =>
    unfold createCommand; dsimp only
    exact countP_le_ite (by simp) (countP_le_ite (by simp) (by simp))
  case leave => unfold leaveCommand; exact countP_le_ite (by simp) (by simp)
  case whisper =>
    unfold whisperCommand; dsimp only
    exact countP_le_ite (by simp) (countP_le_ite (by simp) (by simp))
  case kick =>
    unfold kickCommand; dsimp only
    exact countP_le_ite (by simp [Effect.isDisconnect]) (by simp)
  case ban =>
    unfold banCommand; dsimp only
    split
    · split <;> simp [Effect.isDisconnect]
    · simp
  case mute =>
    unfold muteCommand; dsimp only
    exact countP_le_ite (by simp) (by simp)

theorem handleMessage_disconnects (message : String) (clk : Clock) :
    (handleMessage localTime a srv c message clk).2.countP Effect.isDisconnect ≤ 1 := by
  rw [handleMessage_eq]
  dsimp only
  refine countP_le_ite (by simp) (countP_le_ite (by simp) (countP_le_ite (by simp)
    (countP_le_ite (by simp [registerName])
      (countP_le_ite (processCommand_disconnects _ _ _ _ _ _) ?_))))
  simp [broadcastToRoom_eq]

end Handlers

/-- The steps of a worker a task still needs once queued: it is taken, may stop in its
handler, and returns; a handler other than `OnDisconnect` may also queue one
`on_disconnect`. -/
def Task.cost : Task → Nat
  | .onDisconnect _ => 3
  | _ => 6

/-- **A handler asks at most one disconnection, `HandleDisconnect` none**: the `on_disconnect`
they queue costs less than the steps that stop in the task and return from it. -/
theorem runTask_disconnects (localTime : Int → Tm) (a : App) (srv : IOCPServer) (clk : Clock)
    (t : Task) : 3 * (runTask localTime a srv clk t).2.countP Effect.isDisconnect + 3 ≤ t.cost := by
  cases t with
  | onConnect d sk =>
    simp only [runTask, Task.cost, handleConnect_eq]
    split <;> simp [Effect.isDisconnect]
  | onMessage d m =>
    have := handleMessage_disconnects localTime a srv d m clk
    simp only [runTask, Task.cost]
    omega
  | onDisconnect d =>
    simp [runTask, Task.cost, countP_isDisconnect_eq_zero (handleDisconnect_spec a d).2.2.2.1]

/-- The rest of a handler from where it stopped asks no disconnection. -/
theorem resume_disconnects (a : App) (c : Int) (k : Resume) :
    (k.run a c).2.countP Effect.isDisconnect = 0 := by
  cases k with
  | releasing name room => simp only [Resume.run, disconnectRest]; split <;> simp
  | _ => simp [Resume.run, connectAdmitted, registerName, broadcastSend]

theorem three_le_cost (t : Task) : 3 ≤ t.cost := by cases t <;> simp [Task.cost]

/-- Changing a function at one index below `n` changes the sum of its first `n` values by the
change at that index. -/
theorem sum_range_map_update {n w : Nat} (hw : w < n) {f g : Nat → Nat}
    (h : ∀ i, i ≠ w → f i = g i) :
    ((List.range n).map f).sum + g w = ((List.range n).map g).sum + f w := by
  induction n with
  | zero => omega
  | succ n ih =>
    rw [List.sum_range_succ, List.sum_range_succ]
    rcases Nat.lt_succ_iff_lt_or_eq.1 hw with hw | rfl
    · have := ih hw
      have := h n (by omega)
      omega
    · rw [List.map_congr_left fun i hi => h i (by rw [List.mem_range] at hi; omega)]
      omega

/-- The effects of a handler queue an `on_disconnect` for each disconnection they ask, unless
the pool is stopped. -/
theorem applyAll_threadPool (s : IOCPServer) (effs : List Effect) (sent : List Bool) :
    ∃ L : List Task, (s.applyAll effs sent).threadPool =
        { s.threadPool with tasks := s.threadPool.tasks ++ L } ∧
      (L.map Task.cost).sum ≤ 3 * effs.countP Effect.isDisconnect := by
  induction effs generalizing s sent with
  | nil => exact ⟨[], by simp [IOCPServer.applyAll], by simp⟩
  | cons e effs ih =>
    obtain ⟨L, hL, hc⟩ := ih (Effect.apply s (sent.headD true) e) sent.tail
    cases e with
    | send c m =>
      have hp : (Effect.apply s (sent.headD true) (.send c m)).threadPool = s.threadPool := by
        rw [Effect.apply, (IOCPServer.send_frame s c m _ _).1]
      refine ⟨L, (hL.trans (by rw [hp])), by simpa [Effect.isDisconnect] using hc⟩
    | disconnect c =>
      have hp : (Effect.apply s (sent.headD true) (.disconnect c)).threadPool =
          s.threadPool.enqueue (.onDisconnect c) := by
        simp [Effect.apply, IOCPServer.disconnectClient]
      rw [hp] at hL
      unfold ThreadPool.enqueue at hL
      split at hL
      · exact ⟨L, hL, by simp [Effect.isDisconnect]; omega⟩
      · refine ⟨.onDisconnect c :: L, by simpa using hL, ?_⟩
        simp [Effect.isDisconnect, Task.cost]
        omega

theorem applyAll_received (s : IOCPServer) (effs : List Effect) (sent : List Bool) :
    (s.applyAll effs sent).received = s.received := by
  induction effs generalizing s sent with
  | nil => rfl
  | cons e effs ih =>
    refine (ih (Effect.apply s (sent.headD true) e) sent.tail).trans ?_
    cases e with
    | send c m => rw [Effect.apply, (IOCPServer.send_frame s c m _ _).1]
    | disconnect c => simp [Effect.apply, IOCPServer.disconnectClient]

/-! ## The work left in the pool -/

/-- A step of a pool worker: taking the front task, stopping in its handler, or returning
from it. -/
def Action.isWorkerStep : Action → Bool
  | .take _ | .pause _ _ | .finish _ _ _ => true
  | _ => false

namespace System

variable {localTime : Int → Tm} {s s' : System}

/-- The steps worker `w` still makes for the task it runs: it returns, after stopping in its
handler unless it stopped already, and the handler may queue one `on_disconnect`. -/
def workerWork (s : System) (w : Nat) : Nat :=
  match s.server.threadPool.workers[w]? with
  | some (some t) => t.cost - 1 - if (s.paused.find? w).isSome then 1 else 0
  | _ => 0

/-- The work left in the pool: the cost of every queued task, and what every worker still
does for the task it runs. -/
def work (s : System) : Nat :=
  (s.server.threadPool.tasks.map Task.cost).sum +
    ((List.range s.server.threadPool.workers.length).map s.workerWork).sum

/-- A step that changes the pool's workers and the stops only at worker `w` changes the work
of the workers by the change at `w`. -/
theorem workers_work_update {s' : System} {w : Nat} (hw : w < s.server.threadPool.workers.length)
    (hlen : s'.server.threadPool.workers.length = s.server.threadPool.workers.length)
    (h : ∀ i, i ≠ w → s'.workerWork i = s.workerWork i) :
    ((List.range s'.server.threadPool.workers.length).map s'.workerWork).sum + s.workerWork w =
      ((List.range s.server.threadPool.workers.length).map s.workerWork).sum + s'.workerWork w := by
  rw [hlen]
  exact sum_range_map_update hw h

theorem workerWork_of_eq {s' : System} {i : Nat}
    (hw : s'.server.threadPool.workers[i]? = s.server.threadPool.workers[i]?)
    (hp : s'.paused.find? i = s.paused.find? i) : s'.workerWork i = s.workerWork i := by
  simp only [workerWork, hw, hp]

theorem lt_length_of_getElem? {ws : List (Option Task)} {w : Nat} {x : Option Task}
    (h : ws[w]? = some x) : w < ws.length :=
  (List.getElem?_eq_some_iff.1 h).1

/-- **Before the teardown, every step of a worker lowers the work left in the pool**: taking
a task and stopping in a handler each take one step off it, and returning from a task frees a
worker for more than the `on_disconnect` its handler may queue. Worker steps receive nothing
and do not tear down. -/
theorem work_step (htd : s.tornDown = false) {a : Action}
    (hs : s.step localTime a = some s') (ha : a.isWorkerStep) :
    s'.work + 1 ≤ s.work ∧ s'.server.received = s.server.received ∧ s'.tornDown = false := by
  cases a with
  | take w =>
    -- the front task moves from the queue to the worker
    obtain ⟨p, hp, hs'⟩ := step_take_eq hs
    obtain ⟨t, ts, hwt, htasks, hp'⟩ := ThreadPool.take_eq hp
    have hw := lt_length_of_getElem? hwt
    have hws : s'.server.threadPool.workers = s.server.threadPool.workers.set w (some t) := by
      rw [hs', hp']
    have hsum := workers_work_update hw
      (show s'.server.threadPool.workers.length = _ by rw [hws, List.length_set])
      fun i hi => workerWork_of_eq (by rw [hws, List.getElem?_set_ne (Ne.symm hi)]) (by rw [hs'])
    have h0 : s.workerWork w = 0 := by simp [workerWork, hwt]
    have h1 : s'.workerWork w ≤ t.cost - 1 := by
      simp only [workerWork, hws, List.getElem?_set_self hw]
      split <;> omega
    have htasks' : s'.server.threadPool.tasks = ts := by rw [hs', hp']
    have := three_le_cost t
    simp only [work, htasks, htasks', List.map_cons, List.sum_cons] at hsum ⊢
    exact ⟨by omega, by rw [hs'], by rw [hs']; exact htd⟩
  | pause w clk =>
    -- the worker stops in its handler: one step less for it
    obtain ⟨t, hwt, hk, ⟨htd', -⟩ | ⟨-, a, k, -, hs'⟩⟩ := step_pause_eq hs
    · simp [htd] at htd'
    have hw := lt_length_of_getElem? hwt
    have hws : s'.server.threadPool = s.server.threadPool := by rw [hs']
    have hps : s'.paused = s.paused.set w k := by rw [hs']
    have hsum := workers_work_update hw
      (show s'.server.threadPool.workers.length = _ by rw [hws])
      fun i hi => workerWork_of_eq (by rw [hws]) (by simp [hps, UnorderedMap.find?_set, hi, Ne.symm hi])
    have h0 : s.workerWork w = t.cost - 1 := by simp [workerWork, hwt, hk]
    have h1 : s'.workerWork w = t.cost - 1 - 1 := by
      simp [workerWork, hws, hps, hwt, UnorderedMap.find?_set]
    have := three_le_cost t
    simp only [work, hws] at hsum ⊢
    exact ⟨by omega, by rw [hs'], by rw [hs']; exact htd⟩
  | finish w clk sent =>
    -- the worker is freed, and its handler queues at most one `on_disconnect`
    obtain ⟨t, p, hp, ⟨htd', -⟩ | ⟨-, hs'⟩⟩ := step_finish_eq hs
    · simp [htd] at htd'
    obtain ⟨hwt, hp'⟩ := ThreadPool.finish_eq hp
    have hw := lt_length_of_getElem? hwt
    obtain ⟨L, hL, hc⟩ := applyAll_threadPool { s.server with threadPool := p }
      (s.finishTask localTime w clk t).2 sent
    have hpool : s'.server.threadPool = { p with tasks := p.tasks ++ L } := by
      rw [hs', commit_server, hL]
    have hws : s'.server.threadPool.workers = s.server.threadPool.workers.set w none := by
      rw [hpool, hp']
    have hps : s'.paused = s.paused.erase w := by rw [hs', commit_paused]
    have hsum := workers_work_update hw
      (show s'.server.threadPool.workers.length = _ by rw [hws, List.length_set])
      fun i hi => workerWork_of_eq (by rw [hws, List.getElem?_set_ne (Ne.symm hi)])
        (by simp [hps, UnorderedMap.find?_erase, hi, Ne.symm hi])
    have h1 : s'.workerWork w = 0 := by simp [workerWork, hws, List.getElem?_set_self hw]
    have htasks : s'.server.threadPool.tasks = s.server.threadPool.tasks ++ L := by
      rw [hpool, hp']
    have hdisc : 3 * (s.finishTask localTime w clk t).2.countP Effect.isDisconnect + 1 ≤
        s.workerWork w := by
      unfold System.finishTask
      cases hk : s.paused.find? w with
      | none =>
        have := runTask_disconnects localTime s.app s.server clk t
        simp only [workerWork, hwt, hk, Option.isSome_none, Bool.false_eq_true, if_false]
        omega
      | some k =>
        have := three_le_cost t
        simp only [workerWork, hwt, hk, resume_disconnects, Option.isSome_some, if_true]
        omega
    simp only [work, htasks, List.map_append, List.sum_append] at hsum ⊢
    exact ⟨by omega, by rw [hs', commit_server, applyAll_received], by rw [hs']; exact htd⟩
  | _ => simp [Action.isWorkerStep] at ha

/-- Before the teardown, whatever the workers do, they make at most as many steps as the work
left. -/
theorem work_run (htd : s.tornDown = false) {acts : List Action}
    (hr : s.run localTime acts = some s') (ha : ∀ a ∈ acts, a.isWorkerStep) :
    s'.work + acts.length ≤ s.work ∧ s'.server.received = s.server.received := by
  induction acts generalizing s with
  | nil => cases hr; exact ⟨le_rfl, rfl⟩
  | cons a acts ih =>
    obtain ⟨s₁, h₁, hr⟩ := Option.bind_eq_some.1 hr
    obtain ⟨hw₁, hrec₁, htd₁⟩ := work_step htd h₁ (ha a (List.mem_cons_self _ _))
    obtain ⟨hw, hrec⟩ := ih htd₁ hr fun a h => ha a (List.mem_cons_of_mem _ h)
    exact ⟨by simp only [List.length_cons]; omega, hrec.trans hrec₁⟩

theorem run_cons_of_step {a : Action} {acts : List Action} {s₁ : System}
    (h : s.step localTime a = some s₁) : s.run localTime (a :: acts) = s₁.run localTime acts := by
  simp [run, h]

/-- **Before the teardown, the workers alone can empty the queue and return from every
task**, from any state with the invariant whose pool has a worker. -/
theorem Inv.drain (h : s.Inv) (htd : s.tornDown = false) (hw : s.server.threadPool.workers ≠ [])
    (clk : Clock) :
    ∃ acts s', (∀ a ∈ acts, a.isWorkerStep) ∧ s.run localTime acts = some s' ∧
      s'.server.threadPool.Drained := by
  obtain ⟨k, hk⟩ : ∃ k, s.work = k := ⟨_, rfl⟩
  induction k using Nat.strong_induction_on generalizing s with
  | _ k ih =>
    have hcr : s.crashed = false := by
      cases hc : s.crashed
      · rfl
      · simp [h.crashed_torn hc] at htd
    -- one step of a worker, then the rest by induction on the work left
    have next : ∀ {a : Action} {s₁ : System}, s.step localTime a = some s₁ → a.isWorkerStep →
        ∃ acts s', (∀ a ∈ acts, a.isWorkerStep) ∧
          s.run localTime acts = some s' ∧ s'.server.threadPool.Drained := fun {a s₁} h₁ ha => by
      have hw₁ : s₁.server.threadPool.workers ≠ [] := fun he => hw (List.length_eq_zero.1
        ((step_grows h₁).workers.symm.trans (List.length_eq_zero.2 he)))
      obtain ⟨hwork, -, htd₁⟩ := work_step htd h₁ ha
      obtain ⟨acts, s', ha', hr, hd⟩ := ih _ (by omega) (h.step h₁) htd₁ hw₁ rfl
      exact ⟨a :: acts, s', by simpa [ha] using ha', by rw [run_cons_of_step h₁]; exact hr, hd⟩
    by_cases hrun : ∃ (w : Nat) (t : Task), s.server.threadPool.workers[w]? = some (some t)
    · obtain ⟨w, t, hwt⟩ := hrun
      exact next (step_finish hcr htd (w := w) (t := t) (p := { s.server.threadPool with
        workers := s.server.threadPool.workers.set w none }) (by simp [ThreadPool.finish, hwt]) clk
        []) rfl
    · have hidle : ∀ x ∈ s.server.threadPool.workers, x = none := by
        intro x hx
        obtain ⟨i, hi, rfl⟩ := List.getElem_of_mem hx
        cases hx : s.server.threadPool.workers[i] with
        | none => rfl
        | some t => exact absurd ⟨i, t, by simp [hi, hx]⟩ hrun
      cases htasks : s.server.threadPool.tasks with
      | nil => exact ⟨[], s, by simp, rfl, htasks, hidle⟩
      | cons t ts =>
        obtain ⟨x, xs, hxs⟩ := List.exists_cons_of_ne_nil hw
        have h0 : s.server.threadPool.workers[0]? = some none := by
          simp [hxs, hidle x (by simp [hxs])]
        exact next (step_take hcr (w := 0) (p := { s.server.threadPool with
          tasks := ts, workers := s.server.threadPool.workers.set 0 (some t)
          started := s.server.threadPool.started ++ [t] }) (by simp [ThreadPool.take, h0, htasks]))
          rfl

theorem workers_init_ne_nil (lt : Int → Tm) (conn : CMConfig) (poolSize processors : Nat)
    (fs : FileSystem) (wall : Int) : (init lt conn poolSize processors fs wall).server.threadPool.workers ≠ [] := by
  simp only [init, IOCPServer.start, ThreadPool.new, ne_eq, List.replicate_eq_nil_iff]
  split_ifs <;> simp_all

/-- **The pool never gets stuck before the teardown.** In every run from the state `main`
starts that has not reached `main`'s teardown, the workers alone can empty the queue and
return from every task, and then every chunk received so far has been handled, in order;
whatever the workers do, they make at most as many steps as the work left in the pool. Once
`main` has torn its components down, a worker that returns from its task crashes the
process. -/
theorem workers_drain_pool {lt : Int → Tm} {conn : CMConfig} {poolSize processors : Nat}
    {fs : FileSystem} {wall : Int} {acts : List Action} {s : System}
    (hr : (init lt conn poolSize processors fs wall).run lt acts = some s) (clk : Clock) :
    (s.tornDown = false →
      (∃ acts' s', (∀ a ∈ acts', a.isWorkerStep) ∧ s.run lt acts' = some s' ∧
        s'.server.threadPool.Drained ∧
        ∀ c, s'.server.threadPool.started.filterMap (Task.messageOf c) =
          receivedOf c s.server.received) ∧
      ∀ acts' s', (∀ a ∈ acts', a.isWorkerStep) → s.run lt acts' = some s' →
        acts'.length ≤ s.work) ∧
    (s.tornDown = true → ∀ w t sent, s.server.threadPool.workers[w]? = some (some t) →
      s.step lt (.finish w clk sent) = if s.crashed then none else some s.crash) := by
  have h := (inv_init lt conn poolSize processors fs wall).run hr
  have hw : s.server.threadPool.workers ≠ [] := fun he =>
    workers_init_ne_nil lt conn poolSize processors fs wall (List.length_eq_zero.1
      ((run_grows hr).workers.symm.trans (List.length_eq_zero.2 he)))
  refine ⟨fun htd => ?_, fun htd w t sent hwt => ?_⟩
  · obtain ⟨acts', s', ha, hr', hd⟩ := h.drain htd hw clk
    refine ⟨⟨acts', s', ha, hr', hd, fun c => ?_⟩, fun acts' s' ha hr' => ?_⟩
    · have hm := (h.run hr').server.messages c
      rw [ThreadPool.history, hd.1, List.append_nil, (work_run htd hr' ha).2] at hm
      exact hm
    · have := (work_run htd hr' ha).1
      omega
  · simp [step, ThreadPool.finish, hwt, htd]

/-- A client connects and sends the exit command before a worker takes its `on_connect`:
draining the pool runs both tasks and the `on_disconnect` that the command queues. -/
def exitQueued : List Action :=
  [.accept 1 ⟨"10.0.0.1", 5000⟩ true, .register true 0, .complete 0 (.ok "\x23exit\n") true 0]

theorem workers_drain_pool_exit :
    ∃ s, boot.run noonClock exitQueued = some s ∧
      ((s.tornDown = false →
        (∃ acts' s', (∀ a ∈ acts', a.isWorkerStep) ∧ s.run noonClock acts' = some s' ∧
          s'.server.threadPool.Drained ∧
          ∀ c, s'.server.threadPool.started.filterMap (Task.messageOf c) =
            receivedOf c s.server.received) ∧
        ∀ acts' s', (∀ a ∈ acts', a.isWorkerStep) → s.run noonClock acts' = some s' →
          acts'.length ≤ s.work) ∧
      (s.tornDown = true → ∀ w t sent, s.server.threadPool.workers[w]? = some (some t) →
        s.step noonClock (.finish w ⟨0, 0⟩ sent) = if s.crashed then none else some s.crash)) :=
  have hr : boot.run noonClock exitQueued = some _ := (Option.some_get (by decide)).symm
  ⟨_, hr, workers_drain_pool hr ⟨0, 0⟩⟩

end System

end ChatServer
