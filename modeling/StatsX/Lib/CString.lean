import Mathlib.Data.List.OfFn
import Mathlib.Data.List.TakeWhile
import StatsX.Lib.Bounded

/-!
# Strings in arrays of bytes

A string is stored in an array of bytes and ends at the first NUL. Functions of the `printf` family
store the text they format, as far as it fits, and a NUL after it.

## Main definitions

* `store`, `storeAll`: the array after a write, or after writes one after the other
* `readString`: the string in an array
* `Printf`, `Printf.Documented`: a function of the `printf` family, and what such a function does
* `Printf.print`: a call with an array and its size
* `Printf.ofReturned`: a function of the family with the given return values

## Main results

* `exists_store_iff`: a write is made exactly when its index is in the array
* `exists_storeAll`: bytes that fit are stored in their place
* `Printf.Documented.exists_print`: a call stays in the array and leaves a string in it
-/

namespace StatsX

/-! ## Writes -/

section Store

variable {T : Type*} {n : ℕ}

/-- The array after the write `b[i] = x`. -/
def store (b : CArray T n) (i : ℤ) (x : T) : Except OutOfBounds (CArray T n) :=
  match index n i with
  | .ok k => .ok (Function.update b k x)
  | .error e => .error e

/-- The array after the elements of a list are written from the index `i` on. -/
def storeAll (b : CArray T n) (i : ℕ) : List T → Except OutOfBounds (CArray T n)
  | [] => .ok b
  | x :: l =>
    match store b i x with
    | .ok b => storeAll b (i + 1) l
    | .error e => .error e

variable {b : CArray T n}

/-- **A write is made** exactly when its index is in the array. -/
theorem exists_store_iff {i : ℤ} {x : T} : (∃ b', store b i x = .ok b') ↔ 0 ≤ i ∧ i < n := by
  rw [← exists_index_ok_iff]
  unfold store
  cases index n i with
  | error e => simp
  | ok k => simp

theorem ofFn_update (k : Fin n) (x : T) :
    List.ofFn (Function.update b k x) = (List.ofFn b).set k x := by
  refine List.ext_getElem (by simp) fun i hi _ => ?_
  rw [List.getElem_ofFn, List.getElem_set, List.getElem_ofFn, Function.update_apply]
  exact if_congr (Fin.ext_iff.trans eq_comm) rfl rfl

/-- A write to the place after the elements `p`. -/
theorem exists_store {p r : List T} {x : T} (hb : List.ofFn b = p ++ x :: r) (y : T) :
    ∃ b', store b p.length y = .ok b' ∧ List.ofFn b' = p ++ y :: r := by
  have hlength : n = p.length + (r.length + 1) := by
    simpa using congrArg List.length hb
  have hlt : p.length < n := by omega
  refine ⟨Function.update b ⟨p.length, hlt⟩ y, ?_, ?_⟩
  · unfold store
    rw [show index n p.length = .ok ⟨p.length, hlt⟩ from index_ok_iff.mpr rfl]
  · rw [ofFn_update, hb, List.set_append_right _ _ le_rfl, Nat.sub_self, List.set_cons_zero]

/-- **Elements that fit are stored in their place.** -/
theorem exists_storeAll {p r l : List T} (hb : List.ofFn b = p ++ r) (hl : l.length ≤ r.length) :
    ∃ b', storeAll b p.length l = .ok b' ∧ List.ofFn b' = p ++ l ++ r.drop l.length := by
  induction l generalizing b p r with
  | nil => exact ⟨b, rfl, by simpa using hb⟩
  | cons y l ih =>
    cases r with
    | nil => exact absurd hl (Nat.not_succ_le_zero _)
    | cons x r =>
      -- the first element goes to the place after `p`, the others after it
      obtain ⟨b₁, h₁, hb₁⟩ := exists_store hb y
      have hb₁' : List.ofFn b₁ = (p ++ [y]) ++ r := by rw [hb₁, List.append_assoc]; rfl
      obtain ⟨b₂, h₂, hb₂⟩ := ih hb₁' (Nat.le_of_succ_le_succ hl)
      rw [List.length_append, List.length_singleton] at h₂
      refine ⟨b₂, ?_, ?_⟩
      · rw [storeAll, h₁]
        exact h₂
      · rw [hb₂, List.append_assoc p [y] l]
        rfl

end Store

/-! ## Strings -/

section ReadString

variable {n : ℕ} {b : CArray UInt8 n}

/-- The string in an array: the bytes up to the first NUL. Without one, it is read past the end. -/
def readString (b : CArray UInt8 n) : Except OutOfBounds (List UInt8) :=
  if 0 ∈ List.ofFn b then .ok ((List.ofFn b).takeWhile (· ≠ 0)) else .error ⟨n, n⟩

/-- The bytes of a list before a NUL are those of the string, up to a NUL of their own. -/
theorem takeWhile_append_zero (s r : List UInt8) :
    (s ++ 0 :: r).takeWhile (· ≠ 0) = s.takeWhile (· ≠ 0) := by
  induction s with
  | nil => rfl
  | cons c s ih =>
    rw [List.cons_append, List.takeWhile_cons, List.takeWhile_cons, ih]

theorem readString_of_ofFn {s r : List UInt8} (hb : List.ofFn b = s ++ 0 :: r) :
    readString b = .ok (s.takeWhile (· ≠ 0)) := by
  have hzero : (0 : UInt8) ∈ s ++ 0 :: r := List.mem_append_right s List.mem_cons_self
  rw [readString, hb, if_pos hzero, takeWhile_append_zero]

/-- An array in which a string is read holds a NUL. -/
theorem zero_mem_of_readString {s : List UInt8} (h : readString b = .ok s) : 0 ∈ List.ofFn b := by
  unfold readString at h
  split_ifs at h with hzero
  exact hzero

/-- A list of bytes is a string when none of them is a NUL. -/
theorem takeWhile_ne_zero_eq_self_iff {s : List UInt8} : s.takeWhile (· ≠ 0) = s ↔ 0 ∉ s := by
  rw [List.takeWhile_eq_self_iff]
  constructor
  · intro h hzero
    exact of_decide_eq_true (h 0 hzero) rfl
  · intro h c hc
    exact decide_eq_true fun hzero => h (hzero ▸ hc)

end ReadString

/-! ## Formatted output -/

/-- A function of the `printf` family that stores its output. From the size it is given and the text
it is to format: the bytes that it stores before a NUL, and the value that it returns. -/
structure Printf where
  stored : ℕ → List UInt8 → List UInt8
  returned : ℕ → List UInt8 → ℤ

/-- The values that a function of the family returns: the length of the text, or a negative value
for an error. -/
def ReturnsLength (returned : ℕ → List UInt8 → ℤ) : Prop :=
  ∀ n text, returned n text = text.length ∨ returned n text < 0

namespace Printf

variable {f : Printf} {n : ℕ}

variable (f) in
/-- What a function of the family does: the bytes and the NUL fit the size, and without an error
they are as much of the text as fits. -/
structure Documented : Prop where
  returns : ReturnsLength f.returned
  length_lt : ∀ n text, 0 < n → (f.stored n text).length < n
  stored_eq : ∀ n text, 0 < n → 0 ≤ f.returned n text → f.stored n text = text.take (n - 1)

/-- A call `f(b, sizeof(b), ...)`: the array after it, and the value returned. -/
def print (f : Printf) (b : CArray UInt8 n) (text : List UInt8) :
    Except OutOfBounds (CArray UInt8 n × ℤ) :=
  match storeAll b 0 (f.stored n text ++ [0]) with
  | .ok b => .ok (b, f.returned n text)
  | .error e => .error e

/-- **A call stays in the array** and leaves a string in it. -/
theorem Documented.exists_print (hf : f.Documented) (hn : 0 < n) (b : CArray UInt8 n)
    (text : List UInt8) : ∃ b', f.print b text = .ok (b', f.returned n text) ∧
      ∃ r, List.ofFn b' = f.stored n text ++ 0 :: r := by
  have hfits : (f.stored n text ++ [0]).length ≤ (List.ofFn b).length := by
    rw [List.length_append, List.length_singleton, List.length_ofFn]
    exact hf.length_lt n text hn
  obtain ⟨b', h, hb'⟩ := exists_storeAll (List.nil_append (List.ofFn b)).symm hfits
  rw [List.nil_append, List.append_assoc] at hb'
  refine ⟨b', ?_, _, hb'⟩
  unfold print
  rw [show storeAll b 0 _ = _ from h]

/-- A function of the family that returns the given values. On an error it stores a byte with which
the text does not start. -/
def ofReturned (returned : ℕ → List UInt8 → ℤ) : Printf where
  stored n text :=
    (if 0 ≤ returned n text then text else if text.head? = some 1 then [2] else [1]).take (n - 1)
  returned := returned

theorem documented_ofReturned {returned : ℕ → List UInt8 → ℤ} (h : ReturnsLength returned) :
    (ofReturned returned).Documented where
  returns := h
  length_lt n text hn := by
    refine lt_of_le_of_lt (List.length_take_le _ _) ?_
    omega
  stored_eq n text _ hreturned := congrArg (List.take (n - 1)) (if_pos hreturned)

/-- A function of the family that never reports an error. -/
def total : Printf := ofReturned fun _ text => text.length

theorem documented_total : total.Documented := documented_ofReturned fun _ _ => .inl rfl

end Printf

end StatsX
