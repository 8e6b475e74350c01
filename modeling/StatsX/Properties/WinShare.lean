import Mathlib.Algebra.Order.BigOperators.Group.Finset
import StatsX.Spec.Share

/-!
# Round Win Share under any roster

`RoundEnd` divides the damage of a slot by the damage of the winning team. The first is kept by
slot, the second by the team the attacker had at each hit, and whether a player is paid depends on
the team it has now. When the damage of the winners was dealt for the winning team the quotients
are shares of one whole; a player who changes team, or takes over the slot of another, brings
damage to the numerator that the divisor does not have.

## Main definitions

* `PaidFairly c e t t'`: the settlement divides by at least what it divides, pays winners only, and
  pays at most one whole
* `Settlement.Coherent`: the winners dealt their damage for the winning team, and so is the extra
  share a winner's

## Main results

* `paidFairly_of_coherent`: a run whose settlements are coherent pays fairly at each of them
-/

namespace StatsX

/-- **A fair payment**, from `t` to `t'`, by the call `c` that settles `e`: every record gains what
is paid to it, each division is by a positive number at least as large, only winners are paid, and
the payments are at most one whole. -/
structure PaidFairly (c : Call) (e : Settlement) (t t' : CStats) : Prop where
  gain : ∀ j, (t'.data j).roundWinShare =
    (t.data j).roundWinShare + Event.pays c.server t.toRoundState j (.settle e)
  division : ∀ j, e.Wins c.server j → 0 < (t.roundDamageSelf j).toInt →
    0 < (t.roundDamageTeam e.winner.toIndex).toInt ∧
      (t.roundDamageSelf j).toInt ≤ (t.roundDamageTeam e.winner.toIndex).toInt
  winners : ∀ j, Event.pays c.server t.toRoundState j (.settle e) ≠ 0 → e.Wins c.server j
  total : ∑ j, Event.pays c.server t.toRoundState j (.settle e) ≤ 1

/-- In the round `l`, every hit that counts for a slot with a winner was dealt for the winning
team, and whoever is in the slot of the player who completed the objective is a winner. -/
structure Settlement.Coherent (e : Settlement) (g : Server) (l : List Call) : Prop where
  side : ∀ h ∈ hits l, h.amount ≠ 0 → e.Wins g h.attacker.slot → h.attacker.team = e.winner
  hero : ∀ p ∈ e.hero l, (g.playerAt p.slot).isSome → e.Wins g p.slot

/-- The settlements of a run are coherent. -/
def Coherent (calls : List Call) : Prop :=
  ∀ p c, p ++ [c] <+: calls → ∀ e, c.event? = some (.settle e) →
    e.Coherent c.server (thisRound p)

variable {e : Settlement} {g : Server} {l : List Call}

/-- The extra share goes to a winner. -/
theorem wins_of_bonus (hco : e.Coherent g l) {j : Slot} (h : e.bonus g (.ofCalls l) j ≠ 0) :
    e.Wins g j := by
  unfold Settlement.bonus at h
  split_ifs at h with hj
  · obtain ⟨hindex, hsome⟩ := hj
    rw [bomber_ofCalls] at hindex
    rcases hhero : e.hero l with _ | p
    · rw [hhero, Option.elim_none] at hindex
      omega
    · rw [hhero, Option.elim_some, ← p.slot_val, Int.natCast_inj, Fin.val_inj] at hindex
      subst hindex
      exact hco.hero p hhero hsome
  · exact absurd rfl h

/-- **The damage of the winners is in the damage of their team.** -/
theorem sum_damageBy_le (hfits : Fits l) (hco : e.Coherent g l) :
    ∑ j ∈ e.winners g, damageBy l j ≤ damageFor l e.winner := by
  apply sum_tally_le_of_imp Hit.dealer hfits.nonneg
  intro h hh hwins hne
  have hamount : h.amount ≠ 0 := by
    intro hzero
    exact hne (by rw [Hit.points, hzero]; rfl)
  exact congrArg TeamName.toIndex
    (hco.side h hh hamount ((Settlement.mem_winners _ _).mp hwins))

theorem damageBy_le (hfits : Fits l) (hco : e.Coherent g l) {j : Slot} (hj : e.Wins g j) :
    damageBy l j ≤ damageFor l e.winner :=
  (Finset.single_le_sum (fun k _ => hfits.damageBy_nonneg k)
    ((Settlement.mem_winners _ _).mpr hj)).trans (sum_damageBy_le hfits hco)

/-- The extra share and the part that goes by damage make at most one whole. -/
theorem sum_bonus_add_scale_le (ρ : RoundState) : ∑ j, e.bonus g ρ j + e.scale ≤ 1 := by
  rw [Settlement.sum_bonus, Settlement.scale]
  by_cases hobjective : e.isObjective
  · rw [if_pos hobjective]
    split_ifs <;> norm_num
  · rw [Settlement.bomber_eq_neg_one hobjective, g.playerByIndexSafe_neg_one]
    simp [hobjective]

/-- **One settlement**: a coherent round is paid fairly. -/
theorem paidFairly_of_exec {p : List Call} {c : Call} {t t' : CStats} (hp : Reaches p t)
    (ht : c.exec t = .ok t') (he : c.event? = some (.settle e)) (hfits : Fits (thisRound p))
    (hco : e.Coherent c.server (thisRound p)) : PaidFairly c e t t' := by
  have hround := round_of_reaches hp
  have hpos : ∀ j, e.Wins c.server j → 0 < damageBy (thisRound p) j →
      0 < damageFor (thisRound p) e.winner :=
    fun j hj hdealt => hdealt.trans_le (damageBy_le hfits hco hj)
  refine ⟨(Call.exec_event he ht).2.2, ?_, ?_, ?_⟩
  -- the division of a winner with damage
  · intro j hj hdealt
    rw [hround, hfits.toInt_roundDamageSelf] at hdealt ⊢
    rw [hfits.toInt_roundDamageTeam]
    exact ⟨hpos j hj hdealt, damageBy_le hfits hco hj⟩
  -- who is no winner could only have the extra share
  · intro j hpaid
    by_contra hj
    rw [hround, pays_eq hfits hpos, Settlement.payment, if_neg hj, add_zero] at hpaid
    exact hj (wins_of_bonus hco fun hzero => hpaid (by rw [hzero]; rfl))
  -- the winners' part of the damage of the team is at most one
  · simp only [hround, pays_eq hfits hpos]
    rw [← WithTop.coe_sum, ← WithTop.coe_one, WithTop.coe_le_coe, sum_payment]
    have hle : ((∑ j ∈ e.winners c.server, damageBy (thisRound p) j : ℤ) : ℚ) ≤
        damageFor (thisRound p) e.winner := by exact_mod_cast sum_damageBy_le hfits hco
    have hone := div_le_one_of_le₀ hle (by exact_mod_cast hfits.damageFor_nonneg e.winner)
    calc _ ≤ ∑ j, e.bonus c.server _ j + e.scale * 1 :=
          add_le_add_right (mul_le_mul_of_nonneg_left hone e.scale_nonneg) _
      _ ≤ 1 := by rw [mul_one]; exact sum_bonus_add_scale_le _

/-- **A run whose settlements are coherent pays fairly** at each of them, when no amount is
negative and no counter of damage wraps. -/
theorem paidFairly_of_coherent {calls : List Call} (hfits : ∀ p, p <+: calls → Fits (thisRound p))
    (hco : Coherent calls) : ∀ p c t t' e, p ++ [c] <+: calls → Reaches p t →
      c.exec t = .ok t' → c.event? = some (.settle e) → PaidFairly c e t t' := by
  intro p c t t' e hp ht hexec he
  exact paidFairly_of_exec ht hexec he (hfits p ((List.prefix_append p [c]).trans hp))
    (hco p c hp e he)

/-! ## A player who changes team -/

/-- The counter-terrorists win, and the terrorist of the duel has joined them. -/
def turncoatEnd : Call :=
  ⟨.ofPlayers [{ duelT with team := .ct }, duelCt], .roundEnd winstatusCts .ctsWin⟩

/-- The damage of the player who changed team is divided by zero. -/
theorem turncoat_divides_by_zero : ∃ t t', Reaches [duelHit] t ∧ Fits (thisRound [duelHit]) ∧
    turncoatEnd.exec t = .ok t' ∧ turncoatEnd.event? = some (.settle ⟨.ct, .ctsWin⟩) ∧
      ¬ PaidFairly turncoatEnd ⟨.ct, .ctsWin⟩ t t' := by
  obtain ⟨t, t', ht, hend⟩ : ∃ t t', Reaches [duelHit] t ∧ turncoatEnd.exec t = .ok t' :=
    exists_reaches_concat rfl
  refine ⟨t, t', ht, by decide, hend, rfl, fun h => ?_⟩
  have hdivision := h.division 1
  rw [round_of_reaches ht] at hdivision
  revert hdivision
  decide

theorem coherent_duel : Coherent [duelHit, duelEnd] := by
  intro p c hp e he
  obtain ⟨i, hi, rfl, rfl⟩ := concat_prefix_iff.mp hp
  match i, hi with
  | 0, _ =>
    have hhit : duelHit.event? = some (.hit ⟨duelCt, duelT⟩) := rfl
    simp [hhit] at he
  | 1, _ =>
    obtain rfl : duelSettlement = e := Event.settle.inj (Option.some.inj he)
    show Settlement.Coherent duelSettlement duelEnd.server (thisRound [duelHit])
    exact ⟨by decide, by decide⟩

theorem fits_duel : ∀ p, p <+: [duelHit, duelEnd] → Fits (thisRound p) := by
  intro p hp
  rw [List.prefix_iff_eq_take.mp hp]
  have hfits : ∀ i ≤ 2, Fits (thisRound ([duelHit, duelEnd].take i)) := by decide
  exact hfits _ hp.length_le

/-- A duel that the player with the damage wins. -/
theorem paidFairly_duel : ∃ t t', Reaches [duelHit] t ∧ duelEnd.exec t = .ok t' ∧
    PaidFairly duelEnd duelSettlement t t' := by
  obtain ⟨t, t', ht, hend⟩ : ∃ t t', Reaches [duelHit] t ∧ duelEnd.exec t = .ok t' :=
    exists_reaches_concat rfl
  exact ⟨t, t', ht, hend, paidFairly_of_coherent fits_duel coherent_duel _ _ _ _ _
    (List.prefix_refl _) ht hend event?_duelEnd⟩

end StatsX
