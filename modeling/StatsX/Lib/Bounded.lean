import Mathlib.Data.Fin.Basic
import Mathlib.Logic.Function.Basic

/-!
# Arrays of a fixed size, indexed by machine integers

An array `T a[n]` is a function on `Fin n`. Its index is an integer that nothing bounds: an
access whose index is not below `n` has no meaning and ends the computation in an `OutOfBounds`.

## Main definitions

* `CArray T n`: the contents of `T a[n]`
* `index n i`: the checked conversion of an integer to an index below `n`

## Main results

* `bind_ok_iff`: a sequence of computations succeeds exactly when each of them does
* `index_ok_iff`: an integer is accepted exactly when it is an index of the array
-/

namespace StatsX

universe u

/-! ## Computations that may fail -/

section Except

variable {ε : Type*} {α β : Type u}

@[simp] theorem ok_bind (a : α) (f : α → Except ε β) : (Except.ok a >>= f) = f a := rfl

@[simp] theorem error_bind (e : ε) (f : α → Except ε β) :
    ((Except.error e : Except ε α) >>= f) = .error e := rfl

@[simp] theorem pure_eq_ok (a : α) : (pure a : Except ε α) = .ok a := rfl

/-- A sequence of computations succeeds exactly when each of them does. -/
theorem bind_ok_iff {x : Except ε α} {f : α → Except ε β} {b : β} :
    (x >>= f) = .ok b ↔ ∃ a, x = .ok a ∧ f a = .ok b := by
  cases x with
  | error e => simp
  | ok a => simp

end Except

/-! ## Arrays -/

/-- The contents of an array `T a[n]`. -/
abbrev CArray (T : Type*) (n : ℕ) := Fin n → T

/-- An access outside an array: the index and the size of the array. -/
structure OutOfBounds where
  index : ℤ
  size : ℕ
  deriving DecidableEq, Repr

/-- The index `i` into an array of size `n`. -/
def index (n : ℕ) (i : ℤ) : Except OutOfBounds (Fin n) :=
  if h : 0 ≤ i ∧ i.toNat < n then .ok ⟨i.toNat, h.2⟩ else .error ⟨i, n⟩

variable {n : ℕ}

@[simp] theorem index_val (i : Fin n) : index n (i.val : ℤ) = .ok i := by
  simp [index]

/-- **An integer is accepted** exactly when it is an index of the array. -/
theorem index_ok_iff {i : ℤ} {k : Fin n} : index n i = .ok k ↔ (k.val : ℤ) = i := by
  constructor
  · intro h
    unfold index at h
    split_ifs at h with hi
    obtain rfl := Except.ok.inj h
    exact Int.toNat_of_nonneg hi.1
  · rintro rfl
    exact index_val k

theorem exists_index_ok_iff {i : ℤ} : (∃ k, index n i = .ok k) ↔ 0 ≤ i ∧ i < n := by
  simp only [index_ok_iff]
  constructor
  · rintro ⟨k, rfl⟩
    exact ⟨Int.natCast_nonneg _, by exact_mod_cast k.isLt⟩
  · rintro ⟨h₀, h⟩
    exact ⟨⟨i.toNat, by omega⟩, Int.toNat_of_nonneg h₀⟩

end StatsX
