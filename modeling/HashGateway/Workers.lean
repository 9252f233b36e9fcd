import HashGateway.Settings.Kind

/-!
# Worker pools

Jobs are handed to a pool, and each delivers a number or crashes. A pool with a shared
queue is a state that changes by single events: a job comes in, a worker takes the
first job of the queue, finishes it, or crashes in it and is replaced. A worker holds
the queue by a handle of its own, and the queue is lost with the last handle.

## Main definitions

* `Job` — what a job does
* `SharedPool`, `SharedPool.step` — a pool with a shared queue, and its events
* `PoolKind.deliveries` — the numbers that a pool delivers for some jobs
* `Replacement.attempts?` — how often the replacement of a crashed worker is tried
-/

namespace HashGateway

/-- What a job does. -/
inductive Job
  | deliver (n : Nat)
  | crash
  deriving DecidableEq, Repr

/-- The number that a job delivers. -/
def Job.delivery? : Job → Option Nat
  | deliver n => some n
  | crash => none

/-- A pool with a shared queue. -/
structure SharedPool where
  /-- Whether jobs can still come in. -/
  isOpen : Bool
  queue : List Job
  /-- The number of handles by which the queue is held. -/
  handles : Nat
  /-- The number of workers without a job. -/
  idle : Nat
  /-- The jobs that workers have taken and not finished. -/
  busy : List Job
  /-- The jobs that have been taken, in this order. -/
  taken : List Job
  /-- The numbers that have been delivered, in this order. -/
  delivered : List Nat
  deriving DecidableEq, Repr

namespace SharedPool

/-- The number of workers. -/
def live (p : SharedPool) : Nat := p.idle + p.busy.length

/-- A pool with one more worker, who holds the queue as well. -/
def hire (p : SharedPool) : SharedPool := { p with handles := p.handles + 1, idle := p.idle + 1 }

/-- A pool with one handle less. With the last one the queue is lost, and the jobs in it. -/
def letGo (p : SharedPool) : SharedPool :=
  if p.handles ≤ 1 then { p with handles := 0, queue := [] }
  else { p with handles := p.handles - 1 }

/-- A new pool with some workers. Who makes it holds the queue until all are there. -/
def ofThreads (threads : Nat) : SharedPool :=
  (Nat.repeat hire threads ⟨true, [], 1, 0, [], [], []⟩).letGo

/-- A pool whose worker has ended a job. After a crash another worker is hired while the one that
crashed still holds the queue. -/
def finish (p : SharedPool) (job : Job) : SharedPool :=
  let left := { p with busy := p.busy.erase job }
  match job with
  | .deliver n => { left with idle := left.idle + 1, delivered := left.delivered ++ [n] }
  | .crash => left.hire.letGo

/-- What happens to a pool. -/
inductive Event
  /-- A job comes in. -/
  | submit (job : Job)
  /-- A worker takes the first job of the queue. -/
  | take
  /-- A worker ends its job; if it crashes, it is replaced. -/
  | finish (job : Job)
  /-- No more jobs can come in. -/
  | close
  /-- A worker without a job ends, since no more can come. -/
  | leave
  deriving DecidableEq, Repr

/-- A pool after an event, if the event is possible. A job that comes into a pool whose queue is
lost is dropped. -/
def step (p : SharedPool) : Event → Option SharedPool
  | .submit job =>
    if !p.isOpen then none
    else if p.handles = 0 then some p
    else some { p with queue := p.queue ++ [job] }
  | .take =>
    match p.queue with
    | [] => none
    | job :: queue =>
      if p.idle = 0 then none
      else
        some { p with
          queue := queue, idle := p.idle - 1, busy := job :: p.busy, taken := p.taken ++ [job] }
  | .finish job => if job ∈ p.busy then some (p.finish job) else none
  | .close => if p.isOpen then some { p with isOpen := false } else none
  | .leave =>
    if p.isOpen || !p.queue.isEmpty || p.idle = 0 then none
    else some { p with idle := p.idle - 1 }.letGo

/-- A pool after several events, those that are not possible being left out. -/
def after (p : SharedPool) (events : List Event) : SharedPool :=
  events.foldl (fun p event => (p.step event).getD p) p

/-- The events of jobs that come in one after the other and are then done one after the other. -/
def inTurn (jobs : List Job) : List Event :=
  jobs.map .submit ++ jobs.flatMap fun job => [.take, .finish job]

end SharedPool

/-- The numbers that a pool delivers for some jobs, in ascending order. A pool without a queue of
its own runs every job. -/
def PoolKind.deliveries (kind : PoolKind) (threads : Nat) (jobs : List Job) : List Nat :=
  let delivered :=
    match kind with
    | .shared => ((SharedPool.ofThreads threads).after (SharedPool.inTurn jobs)).delivered
    | .naive | .stealing => jobs.filterMap Job.delivery?
  delivered.mergeSort (· ≤ ·)

namespace Replacement

/-- How often a thread is tried to be made in place of one that crashes, given what becomes of the
attempts. A thread that cannot be made gives its queue back to the one that crashes, and giving it
back begins the replacement anew; so there is no number if no attempt succeeds. -/
def attempts? : (outcomes : List Bool) → Option Nat
  | [] => none
  | true :: _ => some 1
  | false :: rest => (attempts? rest).map (· + 1)

end Replacement

end HashGateway
