import HashGateway.Proofs.WorkerPool

/-!
# Replacing a worker

A worker that crashes in a job lets go of its handle of the queue, and this is where another worker
is hired: a copy of the handle is made for it. If no thread can be made, the copy is let go of in
the same crash, which begins the same again. So a failed attempt is never the last one. Attempts go
on until one succeeds, and then the pool is as if the first had; if none succeeds they never end,
and the pool does not get by with fewer workers.

## Main definitions

* `SharedPool.release` — lets go of a handle in a crash, given what becomes of the attempts
* `Replacement.first` — what becomes of the first attempts

## Main results

* `Replacement.attempts?_eq_some_iff` — attempts end with the first one that succeeds
* `SharedPool.release_eq` — whatever the number of attempts, the pool after them is the same
* `SharedPool.crash_ends_iff` — a crash ends, with a full pool, exactly if an attempt succeeds
-/

namespace HashGateway

/-! ## Attempts -/

namespace Replacement

variable {outcomes : List Bool}

/-- Attempts end with the first one that succeeds. -/
theorem attempts?_eq_some_iff {n : Nat} :
    attempts? outcomes = some n ↔
      ∃ failures later, outcomes = List.replicate failures false ++ true :: later ∧
        n = failures + 1 := by
  constructor
  · intro ended
    induction outcomes generalizing n with
    | nil => exact nomatch ended
    | cons outcome rest ih =>
      cases outcome with
      | true => exact ⟨0, rest, rfl, (Option.some.inj ended).symm⟩
      | false =>
        obtain ⟨m, ended_later, rfl⟩ := Option.map_eq_some_iff.mp ended
        obtain ⟨failures, later, rfl, rfl⟩ := ih ended_later
        exact ⟨failures + 1, later, by rw [List.replicate_succ, List.cons_append], rfl⟩
  · rintro ⟨failures, later, rfl, rfl⟩
    induction failures with
    | zero => rfl
    | succ failures ih =>
      rw [List.replicate_succ, List.cons_append, attempts?, ih, Option.map_some]

/-- As long as every attempt fails, there is another one. -/
theorem attempts?_eq_none_iff : attempts? outcomes = none ↔ true ∉ outcomes := by
  induction outcomes with
  | nil => simp [attempts?]
  | cons outcome rest ih => cases outcome <;> simp [attempts?, ih]

/-- What becomes of the first attempts. -/
def first (n : Nat) (outcomes : Nat → Bool) : List Bool := (List.range n).map outcomes

/-- The first attempts up to the one that succeeds. -/
theorem first_of_failures {outcomes : Nat → Bool} {n : Nat} (failed : ∀ i < n, outcomes i = false)
    (succeeded : outcomes n = true) :
    first (n + 1) outcomes = List.replicate n false ++ [true] := by
  have failures : (List.range n).map outcomes = List.replicate n false :=
    List.eq_replicate_iff.mpr ⟨by simp, by simpa using failed⟩
  rw [first, List.range_succ, List.map_append, failures, List.map_singleton, succeeded]

theorem true_notMem_first {outcomes : Nat → Bool} (failed : ∀ i, outcomes i = false) (n : Nat) :
    true ∉ first n outcomes := by
  simp [first, failed]

end Replacement

/-! ## The pool -/

namespace SharedPool

variable {p : SharedPool} {events : List Event} {threads : Nat}

/-- Lets go of a handle in a crash, given what becomes of the attempts to make a thread. A copy of
the handle is made for another worker. If there can be none, the copy is let go of in the same way,
and only then the handle itself. -/
def release (p : SharedPool) : (outcomes : List Bool) → Option SharedPool
  | [] => none
  | true :: _ => some p.hire.letGo
  | false :: later => (release { p with handles := p.handles + 1 } later).map letGo

/-- Who lets go of a queue when another worker has been hired leaves it as it was. -/
theorem letGo_hire (held : 0 < p.handles) : p.hire.letGo = { p with idle := p.idle + 1 } :=
  letGo_of_lt (Nat.succ_lt_succ held)

/-- Every copy that was made in vain is let go of again. -/
theorem release_eq (held : 0 < p.handles) (outcomes : List Bool) :
    p.release outcomes = if true ∈ outcomes then some p.hire.letGo else none := by
  induction outcomes generalizing p with
  | nil => rfl
  | cons outcome later ih =>
    cases outcome with
    | true => rw [if_pos List.mem_cons_self]; rfl
    | false =>
      -- The copy is let go of before the handle itself, and neither is the last one.
      have copied : 0 < { p with handles := p.handles + 1 }.handles := Nat.succ_pos _
      have copies : (letGo (hire { p with handles := p.handles + 1 })).letGo = p.hire.letGo := by
        rw [letGo_hire copied, letGo_of_lt (Nat.succ_lt_succ held), letGo_hire held]
        rfl
      rw [release, ih copied]
      by_cases succeeds : true ∈ later
      · rw [if_pos succeeds, if_pos (List.mem_cons_of_mem _ succeeds), Option.map_some, copies]
      · rw [if_neg succeeds, if_neg (by simpa using succeeds), Option.map_none]

/-- A crash ends exactly if an attempt to make a thread succeeds, whatever came before in the pool.
It takes one attempt more than those that fail before, and the pool has as many workers as it had;
how often it was tried makes no difference to it. If every attempt fails, there is no number of them
after which the crash has ended, so the pool is never left with fewer workers. -/
theorem crash_ends_iff (run : Run (ofThreads threads) events p) (crashes : .crash ∈ p.busy)
    (outcomes : Nat → Bool) :
    let left := { p with busy := p.busy.erase .crash }
    (∀ n, (∀ i < n, outcomes i = false) → outcomes n = true →
      Replacement.attempts? (Replacement.first (n + 1) outcomes) = some (n + 1) ∧
      left.release (Replacement.first (n + 1) outcomes) = some (p.finish .crash) ∧
      (p.finish .crash).live = p.live) ∧
    ((∀ i, outcomes i = false) → ∀ n,
      Replacement.attempts? (Replacement.first n outcomes) = none ∧
      left.release (Replacement.first n outcomes) = none) := by
  intro left
  -- The worker that crashes still holds the queue by a handle of its own.
  have fewer := length_erase_add_one crashes
  have held : 0 < p.handles := by
    rw [run.isSound.held, live]
    omega
  have released (outcomes : List Bool) :
      left.release outcomes = if true ∈ outcomes then some (p.finish .crash) else none :=
    release_eq (by exact held) outcomes
  constructor
  · intro n failed succeeded
    rw [released, Replacement.first_of_failures failed succeeded]
    refine ⟨Replacement.attempts?_eq_some_iff.mpr ⟨n, [], rfl, rfl⟩, if_pos (by simp), ?_⟩
    rw [finish_eq held, live, live]
    simp only
    omega
  · intro failed n
    have all_fail := Replacement.true_notMem_first failed n
    exact ⟨Replacement.attempts?_eq_none_iff.mpr all_fail, (released _).trans (if_neg all_fail)⟩

/-- The only worker of a pool crashes, and its replacement succeeds when it is tried again. -/
theorem crash_ends_iff_again :
    let p : SharedPool := ⟨true, [], 1, 0, [.crash], [.crash], []⟩
    let outcomes : Nat → Bool := fun i => i == 1
    Run (ofThreads 1) [.submit .crash, .take] p ∧ .crash ∈ p.busy ∧
      (∀ i < 1, outcomes i = false) ∧ outcomes 1 = true ∧
      Replacement.attempts? [false, true] = some 2 ∧
      release { p with busy := [] } [false, true] = some ⟨true, [], 1, 1, [], [.crash], []⟩ := by
  intro p outcomes
  have run : Run (ofThreads 1) [.submit .crash, .take] p := .step (.step .start rfl) rfl
  have crashes : Job.crash ∈ p.busy := List.mem_singleton.mpr rfl
  obtain ⟨attempts, released, -⟩ := (crash_ends_iff run crashes outcomes).1 1 (by decide) rfl
  exact ⟨run, crashes, by decide, rfl, attempts, released⟩

/-- A replacement that fails is neither the only attempt nor given up: after a failure and a success
there have been two attempts and the pool has its worker again, and however often it fails, the
crash has not ended. -/
theorem crash_never_given_up :
    let p : SharedPool := ⟨true, [], 1, 0, [.crash], [.crash], []⟩
    Run (ofThreads 1) [.submit .crash, .take] p ∧
      Replacement.attempts? [false, true] ≠ some 1 ∧
      (release { p with busy := [] } [false, true]).map live ≠ some (p.live - 1) ∧
      ∀ n, Replacement.attempts? (List.replicate n false) = none ∧
        release { p with busy := [] } (List.replicate n false) = none := by
  intro p
  refine ⟨.step (.step .start rfl) rfl, by decide, by decide, fun n => ?_⟩
  have all_fail : true ∉ List.replicate n false := by simp
  exact ⟨Replacement.attempts?_eq_none_iff.mpr all_fail,
    (release_eq (by decide) _).trans (if_neg all_fail)⟩

end SharedPool

end HashGateway
