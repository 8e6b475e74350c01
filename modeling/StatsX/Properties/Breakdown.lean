import StatsX.Spec.Ledger

/-!
# The breakdown by hit group

`TakeDamage` books a hit and its damage twice, in the totals and in the tables of hit groups. The
two agree as long as they are reset together. The reset of one record forgets the table
`hitBoxDamage`, so that they part exactly when a record is reset on which the current map has
seen damage.

## Main definitions

* `Breakdown s`: in the state `s`, the totals are the sums of the tables
* `LeavesNoDamage calls`: no reset of a single record leaves damage behind

## Main results

* `breakdown_iff`: the breakdown holds all along a run exactly when no reset leaves damage behind
-/

namespace StatsX

/-- The hits and the damage of each record are the sums of its tables of hit groups. -/
def Breakdown (s : CStats) : Prop :=
  ∀ j, (s.data j).hits = ∑ i, (s.data j).hitBox i ∧
    (s.data j).damage = ∑ i, (s.data j).hitBoxDamage i

/-- Where a call resets a single record, the player in its slot and those before it dealt no
damage since the last change of the map. -/
def LeavesNoDamage (calls : List Call) : Prop :=
  ∀ p c, p ++ [c] <+: calls → ∀ j, c.resets j = true → c.isMapChange = false →
    dealt (since Call.isMapChange p) j = 0

/-- The hits are always the sum of their table: both are reset together. -/
theorem hits_of_reaches {calls : List Call} {s : CStats} (h : Reaches calls s) (j : Slot) :
    (s.data j).hits = ∑ i, (s.data j).hitBox i := by
  refine run_induction (P := fun _ s => (s.data j).hits = ∑ i, (s.data j).hitBox i) ?_ ?_ h
  · simp [CStats.initial, CPlayer.zeroed]
  intro p c t t' _ _ ih ht
  have hcell : ∀ i, (t'.data j).hitBox i = _ := fun i => (Call.exec_ok ht).cell j (.hitBox i)
  have hhits : (t'.data j).hits = _ := (Call.exec_ok ht).cell j .hits
  simp only [hcell, hhits, Call.zeroes_eq_resets (x := .hitBox _) rfl,
    Call.zeroes_eq_resets (x := .hits) rfl, Finset.sum_add_distrib,
    (sum_posts_hitGroup ht t.toRoundState j).1]
  cases c.resets j <;> simp [CPlayer.cell, ih]

/-- The breakdown compares the damage since the reset of a record with the damage on the map. -/
theorem breakdown_iff_dealt {calls : List Call} {s : CStats} (h : Reaches calls s) :
    Breakdown s ↔ ∀ j, dealt (since (Call.resets · j) calls) j =
      dealt (since Call.isMapChange calls) j := by
  apply forall_congr'
  intro j
  rw [and_iff_right (hits_of_reaches h j), damage_of_reaches h, sum_hitBoxDamage_of_reaches h]

/-- **What one call does to the comparison**: it holds after the call when it held before, unless
the call resets this record alone and the map has seen damage on it. -/
theorem dealt_concat_eq_iff (p : List Call) (c : Call) (j : Slot)
    (ih : dealt (since (Call.resets · j) p) j = dealt (since Call.isMapChange p) j) :
    dealt (since (Call.resets · j) (p ++ [c])) j = dealt (since Call.isMapChange (p ++ [c])) j ↔
      (c.resets j = true → c.isMapChange = false → dealt (since Call.isMapChange p) j = 0) := by
  rw [since_concat, since_concat]
  cases hmap : c.isMapChange with
  | true => simp [Call.resets_of_isMapChange hmap]
  | false =>
    cases hreset : c.resets j with
    | true =>
      -- the reset empties the left side, and the right side keeps what the map has seen
      simp only [if_true, Bool.false_eq_true, if_false, dealt, tally_hits_concat,
        Call.booked_of_resets _ _ hreset, add_zero, true_implies]
      exact eq_comm
    | false =>
      -- without a reset both sides gain the same
      rw [dealt, dealt] at ih
      simp [dealt, tally_hits_concat, ih]

/-- **The breakdown holds in every state of a run** exactly when no reset of a single record
leaves damage behind. -/
theorem breakdown_iff {calls : List Call} {s : CStats} (h : Reaches calls s) :
    (∀ p t, p <+: calls → Reaches p t → Breakdown t) ↔ LeavesNoDamage calls := by
  constructor
  · intro hall p c hp j
    obtain ⟨t', ht'⟩ := run_ok_of_prefix hp h
    obtain ⟨t, ht⟩ := run_ok_of_prefix ((List.prefix_append p [c]).trans hp) h
    have hbefore :=
      (breakdown_iff_dealt ht).mp (hall p t ((List.prefix_append p [c]).trans hp) ht) j
    have hafter := (breakdown_iff_dealt ht').mp (hall _ t' hp ht') j
    exact (dealt_concat_eq_iff p c j hbefore).mp hafter
  · intro hclean p t hp ht
    apply (breakdown_iff_dealt ht).mpr
    intro j
    clear ht
    -- from the end of the run, by what one call does to the comparison
    induction p using List.reverseRecOn with
    | nil => rfl
    | append_singleton p c ih =>
      exact (dealt_concat_eq_iff p c j (ih ((List.prefix_append p [c]).trans hp))).mpr
        (hclean p c hp j)

/-- A player hits another for 30 and leaves. -/
def hitAndRun : List Call := [duelHit, .duel (.disconnected duelT)]

/-- The record of the player who left still holds the damage by hit group. -/
theorem hitAndRun_leaves_damage : ∃ s, Reaches hitAndRun s ∧ ¬ Breakdown s := by
  obtain ⟨s, hs⟩ : ∃ s, Reaches hitAndRun s := exists_reaches rfl
  refine ⟨s, hs, fun h => ?_⟩
  have := (breakdown_iff_dealt hs).mp h 1
  exact absurd this (by decide)

/-- The player hits, the map changes, and the player gets into the game and hits again. -/
def hitAfterMapChange : List Call :=
  [duelHit, .duel .serverDeactivate, .duel (.getIntoGame duelT), duelHit]

/-- The reset of the record leaves no damage behind, as the map has changed. -/
theorem breakdown_iff_duel : ∃ s, Reaches hitAfterMapChange s ∧
    ((∀ p t, p <+: hitAfterMapChange → Reaches p t → Breakdown t) ↔
      LeavesNoDamage hitAfterMapChange) := by
  obtain ⟨s, hs⟩ : ∃ s, Reaches hitAfterMapChange s := exists_reaches rfl
  exact ⟨s, hs, breakdown_iff hs⟩

end StatsX
