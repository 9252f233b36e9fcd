import HashGateway.Workers
import Mathlib.Data.List.Sort

/-!
# Every job runs once

A run of a pool with a shared queue is any order in which its events can happen: jobs come in,
workers take them, end them or crash in them, and at some time the pool is closed. Whatever the
order is, a worker that crashes does not lose the queue for the others, because another one is
hired before it lets go. So the workers are as many as at the beginning until the pool is closed,
and they stay as long as there are jobs; each job is taken in its turn, is taken once and ends
once.

## Main definitions

* `SharedPool.Run` — an order in which events can happen
* `SharedPool.submitted`, `SharedPool.ended` — the jobs that come in and those that end in a run
* `SharedPool.IsSound` — what holds of a pool after a run
* `SharedPool.work` — how many events a closed pool has before it

## Main results

* `SharedPool.finish_eq` — a crash changes a pool as the end of any other job does
* `SharedPool.Run.isSound` — every run leaves a sound pool
* `SharedPool.runs_every_job_once` — jobs run in their turn and once, whatever the order of events
* `PoolKind.deliveries_shared_of_run` — every order that is carried through delivers the same
-/

namespace HashGateway.SharedPool

variable {p q r : SharedPool} {event : Event} {events more : List Event} {job : Job}
  {threads : Nat}

/-! ## Handles -/

/-- Whoever lets go of a queue that others hold leaves it to them. -/
theorem letGo_of_lt (h : 1 < p.handles) : p.letGo = { p with handles := p.handles - 1 } :=
  if_neg (Nat.not_le.mpr h)

/-- There is nothing to lose in an empty queue. -/
theorem letGo_of_queue (empty : p.queue = []) : p.letGo = { p with handles := p.handles - 1 } := by
  unfold letGo
  split
  · next last =>
    have no_handle : p.handles - 1 = 0 := by omega
    rw [no_handle, empty]
  · rfl

theorem repeat_hire (n : Nat) (p : SharedPool) :
    Nat.repeat hire n p = { p with handles := p.handles + n, idle := p.idle + n } := by
  induction n with
  | zero => rfl
  | succ n ih =>
    rw [Nat.repeat, ih]
    rfl

theorem ofThreads_eq (threads : Nat) :
    ofThreads threads = ⟨true, [], threads, threads, [], [], []⟩ := by
  rw [ofThreads, repeat_hire, letGo_of_queue rfl]
  simp

/-- As long as the queue is held, a crash changes a pool as the end of any other job does: it has
the same workers, and the queue is not lost. -/
theorem finish_eq (held : 0 < p.handles) (job : Job) :
    p.finish job = { p with
      busy := p.busy.erase job, idle := p.idle + 1,
      delivered := p.delivered ++ job.delivery?.toList } := by
  cases job with
  | deliver n => rfl
  | crash =>
    -- The new worker has a handle when the one that crashed lets go.
    have others : 1 < (hire { p with busy := p.busy.erase .crash }).handles := by
      simp only [hire]
      omega
    rw [finish, letGo_of_lt others]
    simp [hire, Job.delivery?]

/-! ## Possible events -/

theorem step_submit_iff : p.step (.submit job) = some q ↔
    p.isOpen = true ∧ q = if p.handles = 0 then p else { p with queue := p.queue ++ [job] } := by
  rw [step]
  cases p.isOpen with
  | false => simp
  | true =>
    simp only [Bool.not_true, Bool.false_eq_true, if_false, true_and]
    split <;> simp [eq_comm]

theorem step_take_iff : p.step .take = some q ↔
    ∃ job queue, p.queue = job :: queue ∧ 0 < p.idle ∧
      q = { p with
        queue := queue, idle := p.idle - 1, busy := job :: p.busy, taken := p.taken ++ [job] } := by
  rw [step]
  split
  · next empty => simp [empty]
  · next job queue front =>
    by_cases busy : p.idle = 0
    · simp [busy]
    · simp [front, busy, Nat.pos_of_ne_zero busy, eq_comm]

theorem step_finish_iff : p.step (.finish job) = some q ↔
    job ∈ p.busy ∧ q = p.finish job := by
  rw [step]
  split
  · next running => simp [running, eq_comm]
  · next other => simp [other]

theorem step_close_iff : p.step .close = some q ↔
    p.isOpen = true ∧ q = { p with isOpen := false } := by
  rw [step]
  split
  · next isOpen => simp [isOpen, eq_comm]
  · next closed => simp [closed]

theorem step_leave_iff : p.step .leave = some q ↔
    p.isOpen = false ∧ p.queue = [] ∧ 0 < p.idle ∧
      q = letGo { p with idle := p.idle - 1 } := by
  rw [step]
  split
  · next kept =>
    simp only [Bool.or_eq_true, Bool.not_eq_true', decide_eq_true_eq] at kept
    simp only [reduceCtorEq, false_iff, not_and]
    intro closed empty idle
    simp [closed, empty] at kept
    omega
  · next free =>
    simp only [Bool.or_eq_true, not_or, Bool.not_eq_true, Bool.not_eq_false',
      List.isEmpty_iff, decide_eq_true_eq] at free
    obtain ⟨⟨closed, empty⟩, idle⟩ := free
    simp [closed, empty, Nat.pos_of_ne_zero idle, eq_comm]

/-! ## Runs -/

/-- The job that comes in by an event. -/
@[simp] def Event.submitted? : Event → Option Job
  | .submit job => some job
  | _ => none

/-- The job that ends by an event. -/
@[simp] def Event.ended? : Event → Option Job
  | .finish job => some job
  | _ => none

/-- The jobs that come in by some events, in this order. -/
def submitted (events : List Event) : List Job := events.filterMap Event.submitted?

/-- The jobs that end by some events, in this order. -/
def ended (events : List Event) : List Job := events.filterMap Event.ended?

@[simp] theorem submitted_append (events : List Event) (event : Event) :
    submitted (events ++ [event]) = submitted events ++ event.submitted?.toList := by
  rw [submitted, List.filterMap_append]
  cases event <;> rfl

@[simp] theorem ended_append (events : List Event) (event : Event) :
    ended (events ++ [event]) = ended events ++ event.ended?.toList := by
  rw [ended, List.filterMap_append]
  cases event <;> rfl

/-- A run of a pool: each event is possible after those before it. -/
inductive Run (p : SharedPool) : List Event → SharedPool → Prop
  | start : Run p [] p
  | step {events : List Event} {event : Event} {q r : SharedPool} (before : Run p events q)
      (possible : q.step event = some r) : Run p (events ++ [event]) r

theorem Run.trans (first : Run p events q) (second : Run q more r) : Run p (events ++ more) r := by
  induction second with
  | start => rwa [List.append_nil]
  | step before possible ih =>
    rw [← List.append_assoc]
    exact .step ih possible

/-- What holds of a pool with some workers after a run. -/
structure IsSound (threads : Nat) (events : List Event) (p : SharedPool) : Prop where
  /-- Each worker holds the queue by one handle, and nobody else does. -/
  held : p.handles = p.live
  /-- The jobs that came in have been taken or wait, in this order; without workers they have been
  dropped. -/
  ordered : p.taken ++ p.queue = if threads = 0 then [] else submitted events
  /-- Each job that has been taken has ended or is being done, and this once. -/
  once : (ended events ++ p.busy).Perm p.taken
  /-- Every job that has ended without a crash has delivered its number. -/
  delivered : p.delivered = (ended events).filterMap Job.delivery?
  /-- While jobs can come in or wait, all workers are there. -/
  staffed : p.isOpen = true ∨ p.queue ≠ [] → p.live = threads

theorem isSound_ofThreads (threads : Nat) : IsSound threads [] (ofThreads threads) := by
  rw [ofThreads_eq]
  exact ⟨rfl, by simp [submitted], .refl _, rfl, fun _ => rfl⟩

theorem length_erase_add_one (mem : job ∈ p.busy) :
    (p.busy.erase job).length + 1 = p.busy.length := by
  have nonempty := List.length_pos_of_mem mem
  rw [List.length_erase_of_mem mem]
  omega

namespace IsSound

/-- Every possible event leaves a sound pool. -/
theorem step (sound : IsSound threads events p) (possible : p.step event = some q) :
    IsSound threads (events ++ [event]) q := by
  obtain ⟨held, ordered, once, delivered, staffed⟩ := sound
  cases event with
  | submit job =>
    obtain ⟨isOpen, rfl⟩ := step_submit_iff.mp possible
    have workers := staffed (.inl isOpen)
    split
    · -- Without workers nothing holds the queue, and the job is dropped.
      next lost =>
      have unstaffed : threads = 0 := by omega
      refine ⟨held, ?_, by simpa using once, by simpa using delivered, staffed⟩
      rw [ordered, if_pos unstaffed, if_pos unstaffed]
    · next kept =>
      have staffed : threads ≠ 0 := by omega
      refine ⟨held, ?_, by simpa using once, by simpa using delivered, fun _ => workers⟩
      rw [if_neg staffed] at ordered ⊢
      rw [← List.append_assoc, ordered, submitted_append]
      rfl
  | take =>
    obtain ⟨job, queue, front, free, rfl⟩ := step_take_iff.mp possible
    rw [front] at ordered staffed
    have workers := staffed (.inr (by simp))
    -- The worker that takes the job was idle and is busy now.
    have live_eq : (p.idle - 1) + (p.busy.length + 1) = p.live := by
      rw [live]
      omega
    refine ⟨held.trans live_eq.symm, ?_, ?_, by simpa using delivered,
      fun _ => live_eq.trans workers⟩
    · rw [List.append_assoc, List.singleton_append, ordered]
      simp
    · have moved : ([] ++ ended events ++ job :: p.busy).Perm (p.taken ++ [job]) :=
        List.perm_middle.trans ((once.cons job).trans (List.perm_append_singleton _ _).symm)
      simpa using moved
  | finish job =>
    obtain ⟨running, rfl⟩ := step_finish_iff.mp possible
    have nonempty := length_erase_add_one running
    have held' : 0 < p.handles := by
      rw [held, live]
      omega
    -- Whether the job ends or crashes, there is one idle worker more, if need be a new one.
    have live_eq : (p.idle + 1) + (p.busy.erase job).length = p.live := by
      rw [live]
      omega
    rw [finish_eq held']
    refine ⟨held.trans live_eq.symm, ?_, ?_, ?_, fun kept => live_eq.trans (staffed kept)⟩
    · simpa using ordered
    · -- The job goes from those that are being done to those that have ended.
      have moved := ((List.perm_cons_erase running).symm.append_left (ended events)).trans once
      simpa using moved
    · rw [ended_append, List.filterMap_append, ← delivered]
      cases job <;> rfl
  | close =>
    obtain ⟨isOpen, rfl⟩ := step_close_iff.mp possible
    exact ⟨held, by simpa using ordered, by simpa using once, by simpa using delivered,
      fun _ => staffed (.inl isOpen)⟩
  | leave =>
    obtain ⟨closed, empty, free, rfl⟩ := step_leave_iff.mp possible
    rw [letGo_of_queue (by exact empty)]
    refine ⟨?_, by simpa using ordered, by simpa using once, by simpa using delivered, ?_⟩
    · simp only [live] at held ⊢
      omega
    · simp [closed, empty]

end IsSound

/-- Every run leaves a sound pool. -/
theorem Run.isSound (run : Run (ofThreads threads) events p) : IsSound threads events p := by
  induction run with
  | start => exact isSound_ofThreads threads
  | step before possible ih => exact ih.step possible

/-! ## The end of a run -/

/-- No worker can take a job or end one, as is the case when nothing is possible any more. -/
def AtRest (p : SharedPool) : Prop := p.step .take = none ∧ ∀ job, p.step (.finish job) = none

/-- How many events a closed pool has before it: two for each job, one for each worker who will not
be busy first. -/
def work (p : SharedPool) : Nat := 2 * (p.queue.length + p.busy.length) + p.idle

namespace IsSound

/-- In a pool at rest no job waits and none is being done. -/
theorem nothing_left (sound : IsSound threads events p) (staffed : 0 < threads)
    (rest : p.AtRest) : p.queue = [] ∧ p.busy = [] := by
  obtain ⟨no_take, no_end⟩ := rest
  have done : p.busy = [] := by
    rw [List.eq_nil_iff_forall_not_mem]
    intro job running
    have possible := step_finish_iff.mpr ⟨running, rfl⟩
    simp [no_end] at possible
  refine ⟨?_, done⟩
  by_contra waiting
  -- All workers are there as long as a job waits, and one of them without a job would take it.
  have workers := sound.staffed (.inr waiting)
  obtain ⟨job, queue, front⟩ := List.exists_cons_of_ne_nil waiting
  have free : 0 < p.idle := by
    rw [live, done, List.length_nil] at workers
    omega
  have possible := step_take_iff.mpr ⟨job, queue, front, free, rfl⟩
  simp [no_take] at possible

/-- When a pool is at rest, every job that came in has ended. -/
theorem ended_perm (sound : IsSound threads events p) (staffed : 0 < threads) (rest : p.AtRest) :
    (ended events).Perm (submitted events) := by
  obtain ⟨empty, done⟩ := sound.nothing_left staffed rest
  have ordered := sound.ordered
  have once := sound.once
  rw [if_neg (by omega), empty, List.append_nil] at ordered
  rwa [done, List.append_nil, ordered] at once

theorem delivered_perm (sound : IsSound threads events p) (staffed : 0 < threads)
    (rest : p.AtRest) : p.delivered.Perm ((submitted events).filterMap Job.delivery?) := by
  rw [sound.delivered]
  exact (sound.ended_perm staffed rest).filterMap _

/-- Every event of a closed pool brings it one event nearer to its end. -/
theorem work_step (sound : IsSound threads events p) (closed : p.isOpen = false)
    (possible : p.step event = some q) : q.isOpen = false ∧ q.work + 1 = p.work := by
  -- Nothing comes in any more; to take a job, to end one and to leave is one step of work each.
  cases event with
  | submit job => simp [step_submit_iff, closed] at possible
  | take =>
    obtain ⟨job, queue, front, free, rfl⟩ := step_take_iff.mp possible
    refine ⟨closed, ?_⟩
    simp only [work, front, List.length_cons]
    omega
  | finish job =>
    obtain ⟨running, rfl⟩ := step_finish_iff.mp possible
    have nonempty := length_erase_add_one running
    have held : 0 < p.handles := by
      rw [sound.held, live]
      omega
    rw [finish_eq held]
    refine ⟨closed, ?_⟩
    simp only [work]
    omega
  | close => simp [step_close_iff, closed] at possible
  | leave =>
    obtain ⟨-, empty, free, rfl⟩ := step_leave_iff.mp possible
    rw [letGo_of_queue (by exact empty)]
    refine ⟨closed, ?_⟩
    simp only [work]
    omega

end IsSound

/-- A run of a closed pool is as long as the work that it does. -/
theorem Run.length_add_work (first : Run (ofThreads threads) events p) (closed : p.isOpen = false)
    (run : Run p more q) : q.isOpen = false ∧ more.length + q.work = p.work := by
  induction run with
  | start => exact ⟨closed, by simp⟩
  | step before possible ih =>
    obtain ⟨still, done⟩ := ih
    obtain ⟨still', less⟩ := (first.trans before).isSound.work_step still possible
    refine ⟨still', ?_⟩
    rw [List.length_append, List.length_singleton]
    omega

/-- Jobs run in their turn and once, in whatever order jobs come in, workers act and the pool is
closed, and whichever jobs crash. After every event of a pool with workers, the jobs that have come
in are those that have been taken, in the same order, and those that wait behind them; each of those
that have been taken has ended or is being done, and this once; and until the pool is closed it has
as many workers as at the beginning. When no worker can go on, all jobs that came in have ended, and
the numbers delivered are those of the jobs that did not crash; a closed pool comes to this after as
many events as it has work. A pool without workers takes no job and ends none. -/
theorem runs_every_job_once (run : Run (ofThreads threads) events p) :
    (0 < threads →
      p.taken ++ p.queue = submitted events ∧
      (ended events ++ p.busy).Perm p.taken ∧
      (p.isOpen = true → p.live = threads) ∧
      (p.AtRest → (ended events).Perm (submitted events) ∧
        p.delivered.Perm ((submitted events).filterMap Job.delivery?)) ∧
      (p.isOpen = false → ∀ more q, Run p more q → more.length + q.work = p.work)) ∧
    (threads = 0 → p.taken = [] ∧ p.queue = [] ∧ ended events = [] ∧ p.delivered = []) := by
  have sound := run.isSound
  constructor
  · intro staffed
    have ordered : p.taken ++ p.queue = submitted events := by
      rw [sound.ordered, if_neg (by omega)]
    exact ⟨ordered, sound.once, fun isOpen => sound.staffed (.inl isOpen),
      fun rest => ⟨sound.ended_perm staffed rest, sound.delivered_perm staffed rest⟩,
      fun closed more q further => (run.length_add_work closed further).2⟩
  · intro unstaffed
    have ordered := sound.ordered
    rw [if_pos unstaffed, List.append_eq_nil_iff] at ordered
    -- Without workers nothing was taken, so nothing runs and nothing has ended.
    have nothing := List.append_eq_nil_iff.mp (List.perm_nil.mp (ordered.1 ▸ sound.once))
    refine ⟨ordered.1, ordered.2, nothing.1, ?_⟩
    rw [sound.delivered, nothing.1, List.filterMap_nil]

/-- The only worker of a pool crashes when the pool has been closed, and a job still waits. -/
theorem runs_every_job_once_crash :
    let events : List Event := [.submit .crash, .take, .submit (.deliver 7), .close,
      .finish .crash, .take, .finish (.deliver 7)]
    let p : SharedPool := ⟨false, [], 1, 1, [], [.crash, .deliver 7], [7]⟩
    Run (ofThreads 1) events p ∧ 0 < 1 ∧ p.AtRest ∧
      (ended events).Perm (submitted events) ∧ p.delivered.Perm [7] := by
  intro events p
  have run : Run (ofThreads 1) events p :=
    .step (.step (.step (.step (.step (.step (.step .start rfl) rfl) rfl) rfl) rfl) rfl) rfl
  have rest : p.AtRest := ⟨rfl, fun job => by simp [step, p]⟩
  obtain ⟨-, -, -, ends, -⟩ := (runs_every_job_once run).1 (by decide)
  exact ⟨run, by decide, rest, ends rest⟩

/-! ## Jobs in turn -/

theorem after_append (p : SharedPool) (events more : List Event) :
    p.after (events ++ more) = (p.after events).after more :=
  List.foldl_append

theorem after_cons_of_step (possible : p.step event = some q) (events : List Event) :
    p.after (event :: events) = q.after events := by
  rw [after, List.foldl_cons, possible]
  rfl

theorem after_submits (isOpen : p.isOpen = true) (held : 0 < p.handles) (jobs : List Job) :
    p.after (jobs.map .submit) = { p with queue := p.queue ++ jobs } := by
  induction jobs generalizing p with
  | nil => simp [after]
  | cons job jobs ih =>
    have possible : p.step (.submit job) = some { p with queue := p.queue ++ [job] } :=
      step_submit_iff.mpr ⟨isOpen, (if_neg (by omega)).symm⟩
    rw [List.map_cons, after_cons_of_step possible, ih (by exact isOpen) (by exact held),
      List.append_assoc, List.singleton_append]

/-- A worker who has nothing else to do does the waiting jobs one after the other. -/
theorem delivered_after_turns {jobs : List Job} (waiting : p.queue = jobs) (held : 0 < p.handles)
    (free : 0 < p.idle) :
    (p.after (jobs.flatMap fun job => [.take, .finish job])).delivered =
      p.delivered ++ jobs.filterMap Job.delivery? := by
  induction jobs generalizing p with
  | nil => simp [after]
  | cons job jobs ih =>
    have takes := step_take_iff.mpr ⟨job, jobs, waiting, free, rfl⟩
    rw [List.flatMap_cons, List.cons_append, List.cons_append, List.nil_append,
      after_cons_of_step takes, after_cons_of_step (step_finish_iff.mpr ⟨List.mem_cons_self, rfl⟩),
      finish_eq (by exact held)]
    rw [ih (by rfl) (by exact held) (by exact Nat.succ_pos _)]
    cases job <;> simp [Job.delivery?, List.filterMap_cons]

end HashGateway.SharedPool

namespace HashGateway.PoolKind

open SharedPool

variable {threads : Nat}

/-- A pool with a shared queue and at least one worker delivers what the jobs deliver. -/
theorem deliveries_shared (staffed : 0 < threads) (jobs : List Job) :
    shared.deliveries threads jobs = (jobs.filterMap Job.delivery?).mergeSort (· ≤ ·) := by
  have submits := after_submits (p := ⟨true, [], threads, threads, [], [], []⟩) rfl staffed jobs
  have turns :=
    delivered_after_turns (p := ⟨true, jobs, threads, threads, [], [], []⟩) rfl staffed staffed
  rw [deliveries, inTurn, SharedPool.after_append, ofThreads_eq, submits]
  exact congrArg (List.mergeSort · _) turns

/-- Every run that is carried through delivers the same numbers, up to their order. -/
theorem deliveries_shared_of_run {events : List Event} {p : SharedPool} (staffed : 0 < threads)
    (run : Run (ofThreads threads) events p) (rest : p.AtRest) :
    shared.deliveries threads (submitted events) = p.delivered.mergeSort (· ≤ ·) := by
  have delivered : p.delivered.Perm ((submitted events).filterMap Job.delivery?) :=
    run.isSound.delivered_perm staffed rest
  rw [deliveries_shared staffed]
  exact List.Perm.eq_of_sortedLE List.sortedLE_mergeSort List.sortedLE_mergeSort
    ((List.mergeSort_perm _ _).trans (delivered.symm.trans (List.mergeSort_perm _ _).symm))

end HashGateway.PoolKind
