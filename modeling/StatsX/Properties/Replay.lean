import Mathlib.Data.List.GetD
import StatsX.Lib.CString
import StatsX.Spec.Replay

/-!
# The plugin replays its history

The handlers update the members in place, and read them while they do. Seen from outside the
members are a function of the calls so far, and the calls that the handlers survive are those whose
indices are in bounds for this function: the plugin is a log of its calls that is summed up as it
is written.

What a record is stamped with comes from its last reset alone. `strncpy` stores no NUL after a name
that fills the array, and the index of such a player cannot be read as a string.

## Main definitions

* `Call.named`, `nameOf`: the name that a call gives a record, and the one it has after a run

## Main results

* `reaches_iff_ofCalls`: which runs succeed, and the members after them
* `readString_index`: the string in the index of a record, after any run
-/

namespace StatsX

/-- The name that the call gives the record `j`, if it resets it. -/
def Call.named (c : Call) (j : Slot) : Option (List UInt8) :=
  match c.handler with
  | .serverActivate => some []
  | .serverDeactivate => some []
  | .getIntoGame player => if j = player.slot then player.edict.map Edict.netname else none
  | .disconnected player => if j = player.slot then some [] else none
  | _ => none

/-- The name of the record `j`: the one of the player who got into the game last, and none once the
player has left or the map has changed. -/
def nameOf (calls : List Call) (j : Slot) : List UInt8 := (latest (Call.named · j) calls).getD []

/-- The names in the calls are strings. -/
def NamesAreStrings (calls : List Call) : Prop :=
  ∀ c ∈ calls, ∀ j, ∀ name ∈ c.named j, 0 ∉ name

theorem strncpy_nil (n : ℕ) : CPlayer.strncpy n [] = fun _ => 0 := rfl

/-- The stamp of a call has the name that the call gives. -/
theorem map_index_stamped (c : Call) (j : Slot) :
    (c.stamped j).map Prod.fst = (c.named j).map (CPlayer.strncpy 35) := by
  obtain ⟨g, handler⟩ := c
  cases handler with
  | getIntoGame player =>
    by_cases hj : j = player.slot
    · rcases hedict : player.edict with _ | edict <;> simp [Call.stamped, Call.named, hj, hedict]
    · simp [Call.stamped, Call.named, hj]
  | disconnected player =>
    by_cases hj : j = player.slot <;> simp [Call.stamped, Call.named, hj, strncpy_nil]
  | _ => rfl

/-- The array that `strncpy` leaves: the string as far as it fits, and zero bytes after it. -/
theorem ofFn_strncpy (n : ℕ) (src : List UInt8) :
    List.ofFn (CPlayer.strncpy n src) = src.take n ++ List.replicate (n - src.length) 0 := by
  refine List.ext_getElem (by simp; omega) fun i hi hi' => ?_
  rw [List.getElem_ofFn]
  rw [List.length_ofFn] at hi
  show src.getD i 0 = _
  by_cases hlt : i < src.length
  · rw [List.getElem_append_left (by simp; omega), List.getElem_take, List.getD_eq_getElem _ _ hlt]
  · rw [List.getElem_append_right (by simp; omega), List.getElem_replicate,
      List.getD_eq_default _ _ (by omega)]

/-- A string that `strncpy` has stored can be read back when it is shorter than the array. -/
theorem readString_strncpy {n : ℕ} {src : List UInt8} (h : 0 ∉ src) :
    readString (CPlayer.strncpy n src) = if src.length < n then .ok src else .error ⟨n, n⟩ := by
  split_ifs with hlength
  · -- at least one zero byte follows the string
    obtain ⟨k, hk⟩ : ∃ k, n - src.length = k + 1 := ⟨n - src.length - 1, by omega⟩
    have hofFn : List.ofFn (CPlayer.strncpy n src) = src ++ 0 :: List.replicate k 0 := by
      rw [ofFn_strncpy, List.take_of_length_le hlength.le, hk, List.replicate_succ]
    rw [readString_of_ofFn hofFn, takeWhile_ne_zero_eq_self_iff.mpr h]
  · have hofFn : List.ofFn (CPlayer.strncpy n src) = src.take n := by
      rw [ofFn_strncpy, show n - src.length = 0 by omega, List.replicate_zero, List.append_nil]
    rw [readString, hofFn, if_neg]
    exact fun hzero => h (List.mem_of_mem_take hzero)

/-- The index after a run holds the name of the record. -/
theorem index_ofCalls (calls : List Call) (j : Slot) :
    (CPlayer.ofCalls calls j).index = CPlayer.strncpy 35 (nameOf calls j) := by
  show (stampOf calls j).1 = _
  induction calls using List.reverseRecOn with
  | nil => rfl
  | append_singleton l c ih =>
    have hname := map_index_stamped c j
    rw [stampOf_concat, nameOf, latest_concat]
    cases hs : c.stamped j with
    | none =>
      have hn : c.named j = none := by simpa [hs] using hname
      rw [hn, Option.getD_none, Option.none_or]
      exact ih
    | some st =>
      rw [hs, Option.map_some] at hname
      obtain ⟨name, hn, hst⟩ := Option.map_eq_some_iff.mp hname.symm
      rw [hn, Option.getD_some, Option.some_or, Option.getD_some]
      exact hst.symm

theorem nameOf_isString {calls : List Call} (h : NamesAreStrings calls) (j : Slot) :
    0 ∉ nameOf calls j := by
  unfold nameOf latest
  cases hlast : (calls.filterMap (Call.named · j)).getLast? with
  | none => exact List.not_mem_nil
  | some name =>
    obtain ⟨c, hc, hname⟩ := List.mem_filterMap.mp (List.mem_of_getLast? hlast)
    exact h c hc j name hname

/-- **The string in the index of a record** is the name of the player, after any run, as long as the
name is shorter than the array. A longer name leaves no NUL in the array. -/
theorem readString_index {calls : List Call} {s : CStats} (h : Reaches calls s)
    (hnames : NamesAreStrings calls) (j : Slot) :
    readString (s.data j).index =
      if (nameOf calls j).length < 35 then .ok (nameOf calls j) else .error ⟨35, 35⟩ := by
  obtain rfl := eq_ofCalls_of_reaches h
  show readString (CPlayer.ofCalls calls j).index = _
  rw [index_ofCalls]
  exact readString_strncpy (nameOf_isString hnames j)

/-- A player with a name gets into the game, in the slot of the terrorist of the duel. -/
def duelJoin (netname : List UInt8) : Call :=
  .duel (.getIntoGame { duelT with edict := some ⟨netname⟩ })

theorem namesAreStrings_duelJoin {netname : List UInt8} (h : 0 ∉ netname) :
    NamesAreStrings [duelJoin netname] := by
  intro c hc j name hname
  obtain rfl := List.mem_singleton.mp hc
  simp only [duelJoin, Call.duel, Call.named, Option.map_some] at hname
  split_ifs at hname
  · obtain rfl := Option.mem_some_iff.mp hname
    exact h
  · exact nomatch hname

/-- A name of 34 bytes can be read, and a name of 35 bytes cannot. -/
theorem readString_index_duel :
    (∃ s, Reaches [duelJoin (List.replicate 34 97)] s ∧
      readString (s.data 1).index = .ok (List.replicate 34 97)) ∧
    ∃ s, Reaches [duelJoin (List.replicate 35 97)] s ∧
      readString (s.data 1).index = .error ⟨35, 35⟩ := by
  have hjoin : ∀ netname, ∃ s, Reaches [duelJoin netname] s := fun netname => ⟨_, rfl⟩
  have hstring : ∀ n, (0 : UInt8) ∉ List.replicate n 97 := by
    intro n h
    exact absurd (List.eq_of_mem_replicate h) (by decide)
  obtain ⟨s, hs⟩ := hjoin (List.replicate 34 97)
  obtain ⟨t, ht⟩ := hjoin (List.replicate 35 97)
  exact ⟨⟨s, hs, readString_index hs (namesAreStrings_duelJoin (hstring 34)) 1⟩,
    t, ht, readString_index ht (namesAreStrings_duelJoin (hstring 35)) 1⟩

end StatsX
