import Mathlib.Data.Nat.Notation

/-!
# Ways for the process to end

The library is built with assertions on. A failed `assert`, a call of `abort`
and an access through a null or dangling pointer all end the process, so an
operation that can reach one of them returns an `Except Failure`.
-/

set_option autoImplicit false

namespace Dalin

/-- What ended the process. -/
inductive Failure
  /-- A failed `assert` on the given expression of the source. -/
  | assertion (expression : String)
  /-- A call of `abort`, after the given message went to `stderr`. -/
  | abort (message : String)
  /-- An access through the given pointer expression, which was null. -/
  | nullPointer (expression : String)
  /-- An access through the given pointer expression, whose target was deleted. -/
  | danglingPointer (expression : String)
  deriving DecidableEq, Repr

/-- `assert(p)`, where `expression` is the source text of `p`. -/
def require (p : Prop) [Decidable p] (expression : String) : Except Failure Unit :=
  if p then .ok () else .error (.assertion expression)

/-- An assertion that holds changes nothing. -/
@[simp] theorem require_of_true {p : Prop} [Decidable p] {e : String} (h : p) :
    require p e = .ok () := if_pos h

/-- An assertion that does not hold ends the process. -/
@[simp] theorem require_of_false {p : Prop} [Decidable p] {e : String} (h : ¬p) :
    require p e = .error (.assertion e) := if_neg h

/-- A passed assertion holds. -/
theorem of_require {p : Prop} [Decidable p] {e : String} {u : Unit} (h : require p e = .ok u) :
    p := by
  unfold require at h
  split at h
  · assumption
  · cases h

/-- An operation past an assertion succeeds exactly if the assertion holds and
the rest of the operation succeeds. -/
theorem require_bind_eq_ok {β : Type} {p : Prop} [Decidable p] {e : String}
    {f : Unit → Except Failure β} {b : β} :
    (require p e >>= f) = .ok b ↔ p ∧ f () = .ok b := by
  unfold require
  by_cases h : p
  · simp only [h, if_true, true_and]
    rfl
  · simp only [h, if_false, false_and, iff_false]
    intro hok
    cases hok

/-- A sequence of two operations succeeds exactly if both do. -/
theorem bind_eq_ok {α β : Type} {x : Except Failure α} {f : α → Except Failure β} {b : β} :
    (x >>= f) = .ok b ↔ ∃ a, x = .ok a ∧ f a = .ok b := by
  cases x with
  | error e =>
    constructor
    · intro h
      cases h
    · rintro ⟨a, h, _⟩
      cases h
  | ok a =>
    constructor
    · intro h
      exact ⟨a, rfl, h⟩
    · rintro ⟨a', h, hf⟩
      cases h
      exact hf

end Dalin
