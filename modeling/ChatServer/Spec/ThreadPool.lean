import ChatServer.Spec.Basic

/-!
# The thread pool

`ThreadPool` of `thread_pool.h` / `thread_pool.cpp`: a FIFO queue of tasks under
`queue_mutex`, a fixed set of workers and a `stop` flag. A worker waits until the queue is
non-empty (or the pool stops), takes the front task under the lock and runs it outside the
lock; `enqueue` drops the task once the pool is stopped; `shutdown` sets `stop`, and the
workers drain the queue before they exit.

The pool is generic in its task type. A worker is `none` while it waits and `some t` while
it runs `t`: taking a task and finishing it are two steps, so one task runs while other
workers take and run theirs. `started` is a history kept for the statements, the tasks in
the order the workers took them; no function of the source reads it.

`active_tasks` is not modelled: it is counted but never read.
-/

namespace ChatServer

/-- The state of a `ThreadPool` running tasks of type `τ`. -/
structure ThreadPool (τ : Type) where
  tasks : List τ
  workers : List (Option τ)
  stop : Bool
  started : List τ

namespace ThreadPool

variable {τ : Type}

/-- The constructor `ThreadPool(num_threads)`: `0` asks for one worker per processor, and at
least one. Every worker starts waiting. -/
def new (numThreads processors : Nat) : ThreadPool τ :=
  let n := if numThreads = 0 then (if processors = 0 then 1 else processors) else numThreads
  { tasks := [], workers := List.replicate n none, stop := false, started := [] }

/-- `enqueue`: a stopped pool drops the task. -/
def enqueue (p : ThreadPool τ) (t : τ) : ThreadPool τ :=
  if p.stop then p else { p with tasks := p.tasks ++ [t] }

/-- A waiting worker `w` takes the front task (the body of the worker loop up to `task()`);
`none` when the worker is busy or the queue is empty. -/
def take (p : ThreadPool τ) (w : Nat) : Option (ThreadPool τ) :=
  match p.workers[w]?, p.tasks with
  | some none, t :: ts =>
    some { p with tasks := ts, workers := p.workers.set w (some t), started := p.started ++ [t] }
  | _, _ => none

/-- Worker `w` returns from its task, which is given back to be run; `none` when the worker is
waiting. -/
def finish (p : ThreadPool τ) (w : Nat) : Option (τ × ThreadPool τ) :=
  match p.workers[w]? with
  | some (some t) => some (t, { p with workers := p.workers.set w none })
  | _ => none

/-- `shutdown`: set `stop`; the workers go on until the queue is empty. -/
def shutdown (p : ThreadPool τ) : ThreadPool τ := { p with stop := true }

/-- `pending_tasks`. -/
def pendingTasks (p : ThreadPool τ) : Nat := p.tasks.length

/-- `thread_count`. -/
def threadCount (p : ThreadPool τ) : Nat := p.workers.length

/-- `is_running`. -/
def isRunning (p : ThreadPool τ) : Bool := !p.stop

/-- The tasks the workers are running. -/
def running (p : ThreadPool τ) : List τ := p.workers.filterMap id

/-- Every task taken or queued, in the order the workers take them. -/
def history (p : ThreadPool τ) : List τ := p.started ++ p.tasks

/-- No task is queued or running. -/
def Drained (p : ThreadPool τ) : Prop := p.tasks = [] ∧ ∀ w ∈ p.workers, w = none

instance [DecidableEq τ] (p : ThreadPool τ) : Decidable p.Drained :=
  inferInstanceAs (Decidable (_ ∧ _))

@[simp] theorem enqueue_stop (p : ThreadPool τ) (t : τ) : (p.enqueue t).stop = p.stop := by
  unfold enqueue; split <;> rfl

@[simp] theorem enqueue_workers (p : ThreadPool τ) (t : τ) :
    (p.enqueue t).workers = p.workers := by
  unfold enqueue; split <;> rfl

@[simp] theorem enqueue_started (p : ThreadPool τ) (t : τ) :
    (p.enqueue t).started = p.started := by
  unfold enqueue; split <;> rfl

theorem history_enqueue (p : ThreadPool τ) (t : τ) :
    (p.enqueue t).history = if p.stop then p.history else p.history ++ [t] := by
  unfold enqueue history; split <;> simp

theorem take_eq {p q : ThreadPool τ} {w : Nat} (h : p.take w = some q) :
    ∃ t ts, p.workers[w]? = some none ∧ p.tasks = t :: ts ∧
      q = { p with tasks := ts, workers := p.workers.set w (some t), started := p.started ++ [t] } := by
  unfold take at h
  split at h
  · cases h; exact ⟨_, _, by assumption, by assumption, rfl⟩
  · cases h

theorem history_take {p q : ThreadPool τ} {w : Nat} (h : p.take w = some q) :
    q.history = p.history ∧ q.stop = p.stop ∧ q.workers.length = p.workers.length := by
  obtain ⟨t, ts, -, hp, rfl⟩ := take_eq h
  simp [history, hp]

theorem finish_eq {p q : ThreadPool τ} {w : Nat} {t : τ} (h : p.finish w = some (t, q)) :
    p.workers[w]? = some (some t) ∧ q = { p with workers := p.workers.set w none } := by
  unfold finish at h
  split at h
  · cases h; exact ⟨by assumption, rfl⟩
  · cases h

theorem history_finish {p q : ThreadPool τ} {w : Nat} {t : τ} (h : p.finish w = some (t, q)) :
    q.history = p.history ∧ q.started = p.started ∧ q.stop = p.stop ∧
      q.workers.length = p.workers.length := by
  obtain ⟨-, rfl⟩ := finish_eq h
  simp [history]

end ThreadPool

end ChatServer
