import ChatServer.Spec.ThreadPool
import Mathlib.Data.List.Perm.Basic

/-!
# The thread pool runs each accepted task once

The pool is driven by steps from any threads: `enqueue`, a worker taking the front task, a
worker returning from its task, and the two ends of a `shutdown()` call. The worker loop catches
every exception of a task, so returning and throwing are the same step (`finish` with `threw`).
`shutdown()` stores `stop` under the queue lock and then joins every worker; a worker leaves its
loop when it is idle and sees `stop && tasks.empty()`, so the call returns (`shutdownReturns`)
only in a stopped `Drained` pool. `Observed` adds what an observer sees to the pool: the tasks
whose `enqueue` found `stop == false`, the tasks that returned or threw, in order, and whether
`shutdown()` has returned.

* `Observed.Inv.step`, `Observed.Inv.run`: the queue is what is left of the accepted tasks after
  the started ones (**FIFO**), the executed tasks with the running ones are the started ones,
  each once, and a pool whose `shutdown()` returned stays drained.
* `Observed.Inv.drain`: the workers alone can always empty the pool, and every step of a worker
  brings it closer (`measure_step`).
* `pool_runs_each_task_once`: along every interleaving from the constructor; once `shutdown()`
  is called, the workers by themselves let it return, and when it returns every accepted task
  has run once and the queue is empty.
-/

namespace ChatServer.ThreadPool

open scoped List

variable {τ : Type}

/-! ## Running tasks -/

/-- Setting a worker changes the running tasks by the old and the new occupant. -/
theorem running_set_perm (ws : List (Option τ)) (w : Nat) (x y : Option τ) (h : ws[w]? = some y) :
    ((ws.set w x).filterMap id ++ y.toList).Perm (ws.filterMap id ++ x.toList) := by
  induction ws generalizing w with
  | nil => simp at h
  | cons a ws ih =>
    cases w with
    | zero =>
      obtain rfl : a = y := by simpa using h
      cases x with
      | none => cases a <;> simp [List.perm_append_singleton]
      | some v =>
        cases a with
        | none => simpa using (List.perm_append_singleton v _).symm
        | some u =>
          simpa using ((List.perm_append_singleton u _).cons v).trans
            ((List.Perm.swap u v _).trans ((List.perm_append_singleton v _).symm.cons u))
    | succ w =>
      have := ih w (by simpa using h)
      cases a <;> simpa using this

theorem length_running_set (ws : List (Option τ)) (w : Nat) (x y : Option τ) (h : ws[w]? = some y) :
    ((ws.set w x).filterMap id).length + y.toList.length =
      (ws.filterMap id).length + x.toList.length := by
  simpa using (running_set_perm ws w x y h).length_eq

/-! ## Steps and runs -/

/-- A step of a thread on the pool: `shutdown` stores the flag, `shutdownReturns` is the
return of the same call once it has joined every worker. -/
inductive Action (τ : Type) where
  | enqueue (t : τ)
  | take (w : Nat)
  | finish (w : Nat) (threw : Bool)
  | shutdown
  | shutdownReturns

/-- The steps of the workers. -/
def Action.byWorker : Action τ → Bool
  | .take _ | .finish _ _ => true
  | _ => false

/-- Every worker has left its loop: each is idle and sees `stop && tasks.empty()`. -/
def exited (p : ThreadPool τ) : Bool := p.stop && p.tasks.isEmpty && p.workers.all Option.isNone

theorem exited_iff (p : ThreadPool τ) : p.exited = true ↔ p.stop = true ∧ p.Drained := by
  simp [exited, Drained, Option.isNone_iff_eq_none, and_assoc]

/-- The pool, the tasks accepted by `enqueue`, the tasks that returned or threw, and whether
`shutdown()` has returned. -/
structure Observed (τ : Type) where
  pool : ThreadPool τ
  accepted : List τ
  executed : List τ
  returned : Bool

namespace Observed

/-- The constructor. -/
def init (numThreads processors : Nat) : Observed τ := ⟨new numThreads processors, [], [], false⟩

/-- One step; `none` when it is not enabled. -/
def step (o : Observed τ) : Action τ → Option (Observed τ)
  | .enqueue t =>
    some { o with
      pool := o.pool.enqueue t
      accepted := if o.pool.stop then o.accepted else o.accepted ++ [t] }
  | .take w => (o.pool.take w).map fun p => { o with pool := p }
  | .finish w _ =>
    (o.pool.finish w).map fun r => { o with pool := r.2, executed := o.executed ++ [r.1] }
  | .shutdown => some { o with pool := o.pool.shutdown }
  | .shutdownReturns => if o.pool.exited then some { o with returned := true } else none

/-- A sequence of steps, each enabled. -/
def run (o : Observed τ) : List (Action τ) → Option (Observed τ)
  | [] => some o
  | a :: acts => (o.step a).bind fun o' => o'.run acts

@[simp] theorem run_nil (o : Observed τ) : o.run [] = some o := rfl

theorem run_cons_of_step {o o' : Observed τ} {a : Action τ} (h : o.step a = some o')
    (acts : List (Action τ)) : o.run (a :: acts) = o'.run acts := by
  simp [run, h]

theorem step_take {o o' : Observed τ} {w : Nat} (hs : o.step (.take w) = some o') :
    ∃ p, o.pool.take w = some p ∧ o' = { o with pool := p } := by
  obtain ⟨p, hp, rfl⟩ := Option.map_eq_some'.1 hs
  exact ⟨p, hp, rfl⟩

theorem step_finish {o o' : Observed τ} {w : Nat} {threw : Bool}
    (hs : o.step (.finish w threw) = some o') :
    ∃ t p, o.pool.finish w = some (t, p) ∧ o' = { o with pool := p, executed := o.executed ++ [t] } := by
  obtain ⟨⟨t, p⟩, hp, rfl⟩ := Option.map_eq_some'.1 hs
  exact ⟨t, p, hp, rfl⟩

/-- `shutdown()` returns only in a stopped, drained pool, and changes nothing else. -/
theorem step_shutdownReturns {o o' : Observed τ} (hs : o.step .shutdownReturns = some o') :
    o.pool.stop = true ∧ o.pool.Drained ∧ o' = { o with returned := true } := by
  simp only [step] at hs
  split at hs
  · cases hs; exact ⟨((exited_iff _).1 ‹_›).1, ((exited_iff _).1 ‹_›).2, rfl⟩
  · cases hs

theorem run_append (o : Observed τ) (acts₁ acts₂ : List (Action τ)) :
    o.run (acts₁ ++ acts₂) = (o.run acts₁).bind fun o' => o'.run acts₂ := by
  induction acts₁ generalizing o with
  | nil => rfl
  | cons a acts ih =>
    show (o.step a).bind (fun o' => o'.run (acts ++ acts₂)) = _
    simp only [run, Option.bind_assoc, ih]

/-- Twice the queued tasks and once the running ones: each step of a worker takes one off. -/
def measure (o : Observed τ) : Nat := 2 * o.pool.tasks.length + o.pool.running.length

/-! ## The invariant -/

/-- The queue is the accepted tasks not yet started; every started task has been executed or
is running, once; once `shutdown()` has returned the pool is stopped and drained. -/
structure Inv (o : Observed τ) : Prop where
  fifo : o.pool.started ++ o.pool.tasks = o.accepted
  once : (o.executed ++ o.pool.running).Perm o.pool.started
  workers : o.pool.workers ≠ []
  returned : o.returned = true → o.pool.stop = true ∧ o.pool.Drained

theorem inv_init (numThreads processors : Nat) : (init numThreads processors : Observed τ).Inv where
  fifo := rfl
  once := by simp [init, new, running, List.filterMap_replicate]
  workers := by simp only [init, new]; split_ifs <;> simp_all
  returned := by simp [init]

variable {o o' : Observed τ}

theorem Inv.step (h : o.Inv) {a : Action τ} (hs : o.step a = some o') : o'.Inv := by
  cases a with
  | enqueue t =>
    cases hs
    by_cases hst : o.pool.stop
    · simpa [enqueue, hst] using h
    · exact ⟨by simp [enqueue, hst, ← h.fifo], by simpa [enqueue, hst, running] using h.once,
        by simpa [enqueue, hst] using h.workers, fun hr => absurd (h.returned hr).1 hst⟩
  | take w =>
    obtain ⟨p, hp, rfl⟩ := step_take hs
    obtain ⟨t, ts, hw, htasks, rfl⟩ := take_eq hp
    have hperm := running_set_perm _ _ (some t) none hw
    refine ⟨by simp [← h.fifo, htasks], ?_, by simpa using h.workers,
      fun hr => by simp [(h.returned hr).2.1] at htasks⟩
    simp only [running, Option.toList_none, List.append_nil, Option.toList_some] at hperm ⊢
    calc o.executed ++ (o.pool.workers.set w (some t)).filterMap id
        _ ~ o.executed ++ (o.pool.workers.filterMap id ++ [t]) := hperm.append_left _
        _ = (o.executed ++ o.pool.workers.filterMap id) ++ [t] := (List.append_assoc ..).symm
        _ ~ o.pool.started ++ [t] := h.once.append_right _
  | finish w threw =>
    obtain ⟨t, p, hr, rfl⟩ := step_finish hs
    obtain ⟨hw, rfl⟩ := finish_eq hr
    have hperm := running_set_perm _ _ none (some t) hw
    refine ⟨by simp [h.fifo], ?_, by simpa using h.workers, fun hret => ?_⟩
    · simp only [running, Option.toList_none, List.append_nil, Option.toList_some] at hperm ⊢
      calc (o.executed ++ [t]) ++ (o.pool.workers.set w none).filterMap id
          _ ~ o.executed ++ ((o.pool.workers.set w none).filterMap id ++ [t]) := by
            rw [List.append_assoc]; exact List.perm_append_comm.append_left _
          _ ~ o.executed ++ o.pool.workers.filterMap id := hperm.append_left _
          _ ~ o.pool.started := h.once
    · -- a pool whose `shutdown()` returned has no running worker
      cases (h.returned hret).2.2 _ (List.getElem?_mem hw)
  | shutdown => cases hs; exact ⟨h.fifo, h.once, h.workers, fun hr => ⟨rfl, (h.returned hr).2⟩⟩
  | shutdownReturns =>
    obtain ⟨hstop, hd, rfl⟩ := step_shutdownReturns hs
    exact ⟨h.fifo, h.once, h.workers, fun _ => ⟨hstop, hd⟩⟩

theorem Inv.run (h : o.Inv) {acts : List (Action τ)} (hr : o.run acts = some o') : o'.Inv := by
  induction acts generalizing o with
  | nil => cases hr; exact h
  | cons a acts ih =>
    obtain ⟨o₁, h₁, hr⟩ := Option.bind_eq_some.1 hr
    exact ih (h.step h₁) hr

/-- In a drained pool every accepted task has been executed, once. -/
theorem Inv.executed_perm (h : o.Inv) (hd : o.pool.Drained) : o.executed.Perm o.accepted := by
  have hrun : o.pool.running = [] := by
    simp only [running, List.filterMap_eq_nil_iff, id_eq]; exact hd.2
  simpa [← h.fifo, hd.1, hrun] using h.once

/-! ## Draining -/

/-- Once the pool is stopped it stays stopped, and no task is accepted any more. -/
theorem stopped_step {a : Action τ} (hs : o.step a = some o') (hstop : o.pool.stop = true) :
    o'.pool.stop = true ∧ o'.accepted = o.accepted := by
  cases a with
  | enqueue t => cases hs; simp [enqueue, hstop]
  | take w =>
    obtain ⟨p, hp, rfl⟩ := step_take hs
    exact ⟨(history_take hp).2.1.trans hstop, rfl⟩
  | finish w threw =>
    obtain ⟨t, p, hr, rfl⟩ := step_finish hs
    exact ⟨(history_finish hr).2.2.1.trans hstop, rfl⟩
  | shutdown => cases hs; exact ⟨rfl, rfl⟩
  | shutdownReturns => obtain ⟨-, -, rfl⟩ := step_shutdownReturns hs; exact ⟨hstop, rfl⟩

/-- Once stopped, the pool stays stopped along a run. -/
theorem stop_run {acts : List (Action τ)} (hr : o.run acts = some o') (hstop : o.pool.stop = true) :
    o'.pool.stop = true := by
  induction acts generalizing o with
  | nil => cases hr; exact hstop
  | cons a acts ih =>
    obtain ⟨o₁, h₁, hr⟩ := Option.bind_eq_some.1 hr
    exact ih hr (stopped_step h₁ hstop).1

/-- A run that calls `shutdown()` ends with the pool stopped. -/
theorem stop_of_shutdown_mem {acts : List (Action τ)} (hr : o.run acts = some o')
    (hmem : .shutdown ∈ acts) : o'.pool.stop = true := by
  induction acts generalizing o with
  | nil => cases hmem
  | cons a acts ih =>
    obtain ⟨o₁, h₁, hr⟩ := Option.bind_eq_some.1 hr
    rcases List.mem_cons.1 hmem with rfl | hmem
    · cases h₁; exact stop_run hr rfl
    · exact ih hr hmem

/-- Every step of a worker takes the pool one step closer to drained; the other steps do not
move it once the pool is stopped. -/
theorem measure_step {a : Action τ} (hs : o.step a = some o') (hstop : o.pool.stop = true) :
    o'.measure + (if a.byWorker then 1 else 0) = o.measure := by
  cases a with
  | enqueue t => cases hs; simp [Action.byWorker, enqueue, hstop]
  | take w =>
    obtain ⟨p, hp, rfl⟩ := step_take hs
    obtain ⟨t, ts, hw, htasks, rfl⟩ := take_eq hp
    have := length_running_set _ _ (some t) none hw
    simp only [Option.toList_none, Option.toList_some, List.length_nil, List.length_singleton]
      at this
    simp only [measure, running, htasks, Action.byWorker, if_true, List.length_cons]
    omega
  | finish w threw =>
    obtain ⟨t, p, hr, rfl⟩ := step_finish hs
    obtain ⟨hw, rfl⟩ := finish_eq hr
    have := length_running_set _ _ none (some t) hw
    simp only [Option.toList_none, Option.toList_some, List.length_nil, List.length_singleton]
      at this
    simp only [measure, running, Action.byWorker, if_true]
    omega
  | shutdown => cases hs; simp [measure, shutdown, Action.byWorker, running]
  | shutdownReturns =>
    obtain ⟨-, -, rfl⟩ := step_shutdownReturns hs; simp [measure, Action.byWorker]

/-- After `shutdown`, a run accepts nothing and makes at most `measure` steps of workers:
whatever the schedule, the workers stop taking steps. -/
theorem measure_run {acts : List (Action τ)} (hr : o.run acts = some o') (hstop : o.pool.stop = true) :
    o'.measure + (acts.filter Action.byWorker).length = o.measure ∧ o'.accepted = o.accepted := by
  induction acts generalizing o with
  | nil => cases hr; exact ⟨rfl, rfl⟩
  | cons a acts ih =>
    obtain ⟨o₁, h₁, hr⟩ := Option.bind_eq_some.1 hr
    have hm := measure_step h₁ hstop
    obtain ⟨hstop₁, hacc₁⟩ := stopped_step h₁ hstop
    obtain ⟨hm', hacc'⟩ := ih hr hstop₁
    refine ⟨?_, hacc'.trans hacc₁⟩
    cases hb : a.byWorker <;> simp only [hb, List.filter_cons, if_true, if_false,
      Bool.false_eq_true, List.length_cons] at hm hm' ⊢ <;> omega

/-- A running worker can return from its task. -/
theorem step_finish_of_running {w : Nat} {t : τ} (hw : o.pool.workers[w]? = some (some t))
    (threw : Bool) : ∃ o', o.step (.finish w threw) = some o' ∧ o'.measure + 1 = o.measure := by
  have := length_running_set _ _ none (some t) hw
  simp only [Option.toList_none, Option.toList_some, List.length_nil, List.length_singleton]
    at this
  refine ⟨{ o with
      pool := { o.pool with workers := o.pool.workers.set w none }
      executed := o.executed ++ [t] }, by simp [step, finish, hw], ?_⟩
  simp only [measure, running]
  omega

/-- When no worker runs a task, the first one can take the front task. -/
theorem step_take_of_idle (h : o.Inv) (hidle : ∀ w ∈ o.pool.workers, w = none) {t : τ}
    {ts : List τ} (htasks : o.pool.tasks = t :: ts) :
    ∃ o', o.step (.take 0) = some o' ∧ o'.measure + 1 = o.measure := by
  obtain ⟨w₀, ws, hws⟩ := List.exists_cons_of_ne_nil h.workers
  have hw : o.pool.workers[0]? = some none := by simp [hws, hidle w₀ (by simp [hws])]
  have := length_running_set _ _ (some t) none hw
  simp only [Option.toList_none, Option.toList_some, List.length_nil, List.length_singleton]
    at this
  refine ⟨{ o with pool := { o.pool with
      tasks := ts
      workers := o.pool.workers.set 0 (some t)
      started := o.pool.started ++ [t] } }, by simp [step, take, hw, htasks], ?_⟩
  simp only [measure, running, htasks, List.length_cons]
  omega

/-- **The workers can always drain the pool**, by their own steps. -/
theorem Inv.drain (h : o.Inv) :
    ∃ acts o', (∀ a ∈ acts, a.byWorker) ∧ o.run acts = some o' ∧ o'.pool.Drained := by
  obtain ⟨k, hm⟩ : ∃ k, o.measure = k := ⟨_, rfl⟩
  induction k using Nat.strong_induction_on generalizing o with
  | _ k ih =>
    by_cases hrun : ∃ (w : Nat) (t : τ), o.pool.workers[w]? = some (some t)
    · obtain ⟨w, t, hw⟩ := hrun
      obtain ⟨o₁, h₁, hm₁⟩ := step_finish_of_running hw false
      obtain ⟨acts, o', hw', hr, hd⟩ := ih _ (by omega) (h.step h₁) rfl
      exact ⟨.finish w false :: acts, o', by simpa [Action.byWorker] using hw',
        by rw [run_cons_of_step h₁]; exact hr, hd⟩
    · have hidle : ∀ w ∈ o.pool.workers, w = none := by
        intro w hw
        obtain ⟨i, hi, rfl⟩ := List.getElem_of_mem hw
        cases hx : o.pool.workers[i] with
        | none => rfl
        | some t => exact absurd ⟨i, t, by simp [hi, hx]⟩ hrun
      cases htasks : o.pool.tasks with
      | nil => exact ⟨[], o, by simp, rfl, htasks, hidle⟩
      | cons t ts =>
        obtain ⟨o₁, h₁, hm₁⟩ := step_take_of_idle h hidle htasks
        obtain ⟨acts, o', hw', hr, hd⟩ := ih _ (by omega) (h.step h₁) rfl
        exact ⟨.take 0 :: acts, o', by simpa [Action.byWorker] using hw',
          by rw [run_cons_of_step h₁]; exact hr, hd⟩

end Observed

open Observed

/-- **Each accepted task runs once.** Along every interleaving of `enqueue`, worker steps and
one `shutdown()` call from the constructor: the workers start the tasks whose `enqueue` found
`stop == false` in the order they were enqueued, and the queue holds the rest; the tasks that
returned or threw, with the running ones, are the started ones, each once. When `shutdown()`
has returned, the queue is empty, no task runs, and every accepted task has been executed
exactly once. Once `shutdown()` has been called, the workers by themselves let it return, and
whatever the schedule they take at most `measure` more steps. -/
theorem pool_runs_each_task_once (numThreads processors : Nat) (acts : List (Action τ))
    (o : Observed τ) (hrun : (init numThreads processors).run acts = some o) :
    o.pool.started ++ o.pool.tasks = o.accepted ∧
    (o.executed ++ o.pool.running).Perm o.pool.started ∧
    (o.returned = true → o.pool.tasks = [] ∧ o.pool.running = [] ∧ o.executed.Perm o.accepted) ∧
    (.shutdown ∈ acts →
      (∃ acts' o', (∀ a ∈ acts', a.byWorker) ∧ o.run (acts' ++ [.shutdownReturns]) = some o' ∧
        o'.returned = true ∧ o'.accepted = o.accepted ∧ o'.executed.Perm o.accepted) ∧
      ∀ acts' o', o.run acts' = some o' → (acts'.filter Action.byWorker).length ≤ o.measure) := by
  have h := (inv_init numThreads processors).run hrun
  refine ⟨h.fifo, h.once, fun hret => ?_, fun hmem => ⟨?_, fun acts' o' hr => ?_⟩⟩
  · obtain ⟨-, hd⟩ := h.returned hret
    exact ⟨hd.1, by simpa [running, List.filterMap_eq_nil_iff] using hd.2, h.executed_perm hd⟩
  · have hstop := stop_of_shutdown_mem hrun hmem
    obtain ⟨acts', o₁, hw, hr, hd⟩ := h.drain
    have hacc := (measure_run hr hstop).2
    have hret : o₁.step .shutdownReturns = some { o₁ with returned := true } := by
      simp [step, (exited_iff _).2 ⟨stop_run hr hstop, hd⟩]
    refine ⟨acts', { o₁ with returned := true }, hw, by rw [run_append, hr]; simp [run, hret], rfl, hacc,
      hacc ▸ (h.run hr).executed_perm hd⟩
  · have := (measure_run hr (stop_of_shutdown_mem hrun hmem)).1
    omega

/-- Two tasks, the first of which throws; a third is enqueued after `shutdown` and dropped, and
`shutdown()` returns once the worker has run the second. -/
theorem pool_runs_each_task_once_throw :
    ∃ o, (init 1 0 : Observed Nat).run [.enqueue 1, .enqueue 2, .take 0, .shutdown, .enqueue 3,
        .finish 0 true, .take 0, .finish 0 false, .shutdownReturns] = some o ∧
      (o.pool.started ++ o.pool.tasks = o.accepted ∧
      (o.executed ++ o.pool.running).Perm o.pool.started ∧
      (o.returned = true → o.pool.tasks = [] ∧ o.pool.running = [] ∧
        o.executed.Perm o.accepted) ∧
      (Action.shutdown ∈ ([.enqueue 1, .enqueue 2, .take 0, .shutdown, .enqueue 3, .finish 0 true,
          .take 0, .finish 0 false, .shutdownReturns] : List (Action Nat)) →
        (∃ acts' o', (∀ a ∈ acts', a.byWorker) ∧ o.run (acts' ++ [.shutdownReturns]) = some o' ∧
          o'.returned = true ∧ o'.accepted = o.accepted ∧ o'.executed.Perm o.accepted) ∧
        ∀ acts' o', o.run acts' = some o' → (acts'.filter Action.byWorker).length ≤ o.measure)) :=
  have hr : (init 1 0 : Observed Nat).run [.enqueue 1, .enqueue 2, .take 0, .shutdown, .enqueue 3,
      .finish 0 true, .take 0, .finish 0 false, .shutdownReturns] = some _ :=
    (Option.some_get (by decide)).symm
  ⟨_, hr, pool_runs_each_task_once 1 0 _ _ hr⟩

end ChatServer.ThreadPool
