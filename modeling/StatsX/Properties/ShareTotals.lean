import StatsX.Properties.WinShare
import StatsX.Spec.Replay

/-!
# The shares of a whole game

Over a game, the share of a record adds up what the settlements pay. When the settlements are
coherent, no player has more of it than rounds won, and all the players together no more than rounds
settled. This is exact for rational shares; the rounding of `float` can exceed it in the last bits.

## Main definitions

* `Call.wonBy`, `roundsWon`: the rounds that the player in a slot has won
* `Call.settles`, `roundsSettled`: the rounds with a winner

## Main results

* `share_bounds_of_coherent`: the shares after a run whose settlements are coherent
-/

namespace StatsX

/-! ## Rounds -/

/-- The call settles a round that the player in slot `j` has won. -/
def Call.wonBy (c : Call) (j : Slot) : Bool :=
  match c.event? with
  | some (.settle e) => e.Wins c.server j
  | _ => false

/-- The call settles a round. -/
def Call.settles (c : Call) : Bool :=
  match c.event? with
  | some (.settle _) => true
  | _ => false

/-- The number of rounds that the player in slot `j` has won since the record was reset. -/
def roundsWon (calls : List Call) (j : Slot) : ℕ :=
  (since (Call.resets · j) calls).countP (Call.wonBy · j)

/-- The number of rounds that have been settled. -/
def roundsSettled (calls : List Call) : ℕ := calls.countP Call.settles

theorem roundsWon_concat (l : List Call) (c : Call) (j : Slot) : roundsWon (l ++ [c]) j =
    if c.resets j then 0 else roundsWon l j + if c.wonBy j then 1 else 0 := by
  rw [roundsWon, since_concat]
  cases c.resets j with
  | true => rfl
  | false => simp [roundsWon, List.countP_append, List.countP_singleton]

theorem roundsSettled_concat (l : List Call) (c : Call) :
    roundsSettled (l ++ [c]) = roundsSettled l + if c.settles then 1 else 0 := by
  rw [roundsSettled, List.countP_append, List.countP_singleton, roundsSettled]

/-! ## Payments of coherent settlements -/

/-- A payment is not negative. -/
theorem payment_nonneg {e : Settlement} {g : Server} {l : List Call} (hfits : Fits l) (j : Slot) :
    0 ≤ e.payment g l j := by
  have hbonus : 0 ≤ e.bonus g (.ofCalls l) j := by
    unfold Settlement.bonus
    split_ifs <;> norm_num
  have hdealt : (0 : ℚ) ≤ damageBy l j := by exact_mod_cast hfits.damageBy_nonneg j
  have hteam : (0 : ℚ) ≤ damageFor l e.winner := by exact_mod_cast hfits.damageFor_nonneg e.winner
  unfold Settlement.payment
  refine add_nonneg hbonus ?_
  split_ifs
  · exact mul_nonneg e.scale_nonneg (div_nonneg hdealt hteam)
  · exact le_rfl

/-- What a call pays is not negative, goes to the winners of a round, and is one whole at most. -/
structure PaysWithin (c : Call) (ρ : RoundState) : Prop where
  nonneg : ∀ j, 0 ≤ c.pays ρ j
  le : ∀ j, c.pays ρ j ≤ if c.wonBy j then 1 else 0
  total : ∑ j, c.pays ρ j ≤ if c.settles then 1 else 0

/-- A call that settles no round pays nothing. -/
theorem paysWithin_of_not_settles {c : Call} (h : c.settles = false) (ρ : RoundState) :
    PaysWithin c ρ := by
  have hpays : ∀ j, c.pays ρ j = 0 := by
    intro j
    unfold Call.pays
    unfold Call.settles at h
    cases he : c.event? with
    | none => rw [Option.elim_none]
    | some event =>
      rw [he] at h
      cases event with
      | settle e => exact Bool.noConfusion h
      | _ => rfl
  refine ⟨fun j => (hpays j).ge, fun j => ?_, ?_⟩
  · rw [hpays]
    split_ifs
    · exact zero_le_one
    · exact le_rfl
  · rw [h]
    exact (Finset.sum_eq_zero fun j _ => hpays j).le

/-- A coherent settlement pays within its limits. -/
theorem paysWithin_of_coherent {p : List Call} {c : Call} {t t' : CStats} (hp : Reaches p t)
    (ht : c.exec t = .ok t') {e : Settlement} (he : c.event? = some (.settle e))
    (hfits : Fits (thisRound p)) (hco : e.Coherent c.server (thisRound p)) :
    PaysWithin c t.toRoundState := by
  have hfair := paidFairly_of_exec hp ht he hfits hco
  have hpays : ∀ j, c.pays t.toRoundState j = (e.payment c.server (thisRound p) j : WithTop ℚ) := by
    intro j
    rw [Call.pays, he, Option.elim_some, round_of_reaches hp]
    refine pays_eq hfits (fun k hk hdealt => ?_) j
    exact hdealt.trans_le (damageBy_le hfits hco hk)
  have hevent : ∀ j, Event.pays c.server t.toRoundState j (.settle e) =
      c.pays t.toRoundState j := fun j => by rw [Call.pays, he, Option.elim_some]
  have hnonneg : ∀ j, 0 ≤ c.pays t.toRoundState j := by
    intro j
    rw [hpays]
    exact_mod_cast payment_nonneg hfits j
  have htotal : ∑ j, c.pays t.toRoundState j ≤ 1 := by
    have := hfair.total
    simpa only [hevent] using this
  have hwon : ∀ j, c.wonBy j = decide (e.Wins c.server j) := by
    intro j
    rw [Call.wonBy, he]
  refine ⟨hnonneg, fun j => ?_, ?_⟩
  · rw [hwon]
    by_cases hj : e.Wins c.server j
    · rw [decide_eq_true hj, if_pos rfl]
      exact (Finset.single_le_sum (fun k _ => hnonneg k) (Finset.mem_univ j)).trans htotal
    · -- who has not won is paid nothing
      rw [decide_eq_false hj, if_neg Bool.false_ne_true]
      have hzero : c.pays t.toRoundState j = 0 := by
        by_contra hne
        exact hj (hfair.winners j (by rwa [hevent]))
      exact hzero.le
  · rw [show c.settles = true by rw [Call.settles, he], if_pos rfl]
    exact htotal

/-! ## Runs of coherent settlements -/

/-- The shares are within the limits that the rounds set. -/
structure SharesWithin (calls : List Call) (s : CStats) : Prop where
  nonneg : ∀ j, 0 ≤ (s.data j).roundWinShare
  le : ∀ j, (s.data j).roundWinShare ≤ (roundsWon calls j : WithTop ℚ)
  total : ∑ j, (s.data j).roundWinShare ≤ (roundsSettled calls : WithTop ℚ)

/-- **One more call** that pays within its limits. -/
theorem SharesWithin.concat {l : List Call} {c : Call} {t t' : CStats} (h : SharesWithin l t)
    (ht : c.exec t = .ok t') (hpays : PaysWithin c t.toRoundState) :
    SharesWithin (l ++ [c]) t' := by
  have hshare := (Call.exec_ok ht).share
  -- what is kept of the shares is no more than they were
  have hkept : ∀ j, 0 ≤ (if c.resets j then 0 else (t.data j).roundWinShare) ∧
      (if c.resets j then 0 else (t.data j).roundWinShare) ≤ (t.data j).roundWinShare := by
    intro j
    split_ifs
    · exact ⟨le_rfl, h.nonneg j⟩
    · exact ⟨h.nonneg j, le_rfl⟩
  refine ⟨fun j => ?_, fun j => ?_, ?_⟩
  · rw [hshare]
    exact add_nonneg (hkept j).1 (hpays.nonneg j)
  · rw [hshare, roundsWon_concat]
    cases hr : c.resets j with
    | true => simp [Call.pays_eq_zero_of_resets hr]
    | false =>
      have hle := add_le_add (h.le j) (hpays.le j)
      rw [if_neg Bool.false_ne_true, if_neg Bool.false_ne_true]
      refine hle.trans_eq ?_
      push_cast
      rfl
  · calc ∑ j, (t'.data j).roundWinShare
        ≤ ∑ j, ((t.data j).roundWinShare + c.pays t.toRoundState j) := by
          refine Finset.sum_le_sum fun j _ => ?_
          rw [hshare]
          exact add_le_add_left (hkept j).2 _
      _ ≤ roundsSettled l + if c.settles then 1 else 0 := by
          rw [Finset.sum_add_distrib]
          exact add_le_add h.total hpays.total
      _ = (roundsSettled (l ++ [c]) : WithTop ℚ) := by
          rw [roundsSettled_concat]
          push_cast
          rfl

/-- **The shares after a run whose settlements are coherent**, without negative amounts and wraps:
none is negative or more than the rounds that its player has won, and together they are no more than
the rounds that have been settled. -/
theorem share_bounds_of_coherent {calls : List Call} {s : CStats} (h : Reaches calls s)
    (hfits : ∀ p, p <+: calls → Fits (thisRound p)) (hco : Coherent calls) :
    (∀ j, 0 ≤ (s.data j).roundWinShare ∧
      (s.data j).roundWinShare ≤ (roundsWon calls j : WithTop ℚ)) ∧
    ∑ j, (s.data j).roundWinShare ≤ (roundsSettled calls : WithTop ℚ) := by
  have hwithin : SharesWithin calls s := by
    refine run_induction (P := SharesWithin) ?_ ?_ h
    · exact ⟨fun _ => le_rfl, fun _ => le_rfl, (Finset.sum_const_zero).le⟩
    · intro p c t t' hp ht ih hc
      refine ih.concat hc ?_
      cases hsettles : c.settles with
      | false => exact paysWithin_of_not_settles hsettles _
      | true =>
        obtain ⟨e, he⟩ : ∃ e, c.event? = some (.settle e) := by
          unfold Call.settles at hsettles
          split at hsettles
          · exact ⟨_, by assumption⟩
          · exact Bool.noConfusion hsettles
        exact paysWithin_of_coherent ht hc he (hfits p ((List.prefix_append p [c]).trans hp))
          (hco p c hp e he)
  exact ⟨fun j => ⟨hwithin.nonneg j, hwithin.le j⟩, hwithin.total⟩

/-- The winner of the duel has one share of one round. -/
theorem share_bounds_of_coherent_duel : ∃ s, Reaches [duelHit, duelEnd] s ∧
    (s.data 1).roundWinShare ≤ 1 := by
  obtain ⟨s, hs⟩ : ∃ s, Reaches [duelHit, duelEnd] s := exists_reaches rfl
  have hbounds := share_bounds_of_coherent hs fits_duel coherent_duel
  refine ⟨s, hs, (hbounds.1 1).2.trans_eq ?_⟩
  rw [show roundsWon [duelHit, duelEnd] 1 = 1 by decide]
  rfl

end StatsX
