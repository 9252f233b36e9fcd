/-!
# Results that may be errors

A computation that succeeds is taken apart at its first step, so that later proofs
never look into the monad.

## Main results

* `Except.bind_eq_ok`, `Except.bind_eq_error` — both halves of a sequence that succeeds
  succeed, and one of them fails if it fails
* `Except.map_eq_ok` — what is mapped succeeds
* `Except.error_eq_error_iff` — an error that is told as the only one with a property
-/

namespace HashGateway.Except

variable {ε α β : Type}

theorem bind_eq_ok {x : Except ε α} {f : α → Except ε β} {b : β} :
    (x >>= f) = .ok b ↔ ∃ a, x = .ok a ∧ f a = .ok b := by
  cases x with
  | error e => simp [bind, Except.bind]
  | ok a => simp [bind, Except.bind]

theorem bind_eq_error {x : Except ε α} {f : α → Except ε β} {e : ε} :
    (x >>= f) = .error e ↔ x = .error e ∨ ∃ a, x = .ok a ∧ f a = .error e := by
  cases x with
  | error e' => simp [bind, Except.bind]
  | ok a => simp [bind, Except.bind]

theorem map_eq_ok {x : Except ε α} {f : α → β} {b : β} :
    x.map f = .ok b ↔ ∃ a, x = .ok a ∧ f a = b := by
  cases x with
  | error e => simp [Except.map]
  | ok a => simp [Except.map]

@[simp] theorem map_ok (f : α → β) (a : α) : (Except.ok a : Except ε α).map f = .ok (f a) := rfl

@[simp] theorem map_error (f : α → β) (e : ε) :
    (Except.error e : Except ε α).map f = .error e := rfl

/-- An error that has a property is the only error with it. -/
theorem error_eq_error_iff {p : ε → Prop} {e e' : ε} (holds : p e) (unique : p e' → e = e') :
    (Except.error e : Except ε α) = .error e' ↔ p e' := by
  rw [Except.error.injEq]
  exact ⟨fun equal => equal ▸ holds, unique⟩

theorem toOption_eq_some {x : Except ε α} {a : α} : x.toOption = some a ↔ x = .ok a := by
  cases x with
  | error e => simp [Except.toOption]
  | ok b => simp [Except.toOption]

theorem toOption_bind (x : Except ε α) (f : α → Except ε β) :
    (x >>= f).toOption = x.toOption.bind fun a => (f a).toOption := by
  cases x <;> rfl

theorem toOption_map (x : Except ε α) (f : α → β) : (x.map f).toOption = x.toOption.map f := by
  cases x <;> rfl

end HashGateway.Except
