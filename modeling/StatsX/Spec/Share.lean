import Mathlib.Algebra.BigOperators.Field
import Mathlib.Algebra.BigOperators.WithTop
import Mathlib.Algebra.Order.Field.Rat
import Mathlib.Tactic.Linarith
import Mathlib.Tactic.NormNum
import StatsX.Lib.Word
import StatsX.Spec.Round

/-!
# The shares of a settled round

A settlement pays each winner its part of the damage of the winning team, and the bomb's hero an
extra share. When no counter of the round wraps and no winner's damage meets a zero divisor, the
payments are rationals, and they sum to the extra share and the winners' part of the team's
damage.

## Main definitions

* `damageBy l j`, `damageFor l team`: the damage of a slot and of a team in the round `l`
* `Fits l`: the amounts of the round are not negative, and no counter wraps
* `Settlement.winners`, `Settlement.hero`, `Settlement.bonus`, `Settlement.scale`: who is paid,
  and how much

## Main results

* `pays_eq`: the payment to a slot
* `sum_payment`: the payments of a settlement
-/

namespace StatsX

/-! ## Damage without wrap -/

/-- The damage of a hit, as an integer. -/
def Hit.points (h : Hit) : ℤ := h.amount.toInt

/-- The damage that the players in slot `j` dealt in the calls `l`. -/
def damageBy (l : List Call) (j : Slot) : ℤ := tally Hit.dealer Hit.points (hits l) j

/-- The damage that players dealt in the calls `l` while they were on the team. -/
def damageFor (l : List Call) (team : TeamName) : ℤ :=
  tally Hit.side Hit.points (hits l) team.toIndex

/-- No amount of the calls `l` is negative, and no 32-bit counter of damage wraps. -/
structure Fits (l : List Call) : Prop where
  nonneg : ∀ h ∈ hits l, 0 ≤ h.points
  damageBy_lt : ∀ j, damageBy l j < 2 ^ 31
  damageFor_lt : ∀ team : TeamIndex, tally Hit.side Hit.points (hits l) team < 2 ^ 31

instance (l : List Call) : Decidable (Fits l) :=
  decidable_of_iff ((∀ h ∈ hits l, 0 ≤ h.points) ∧ (∀ j, damageBy l j < 2 ^ 31) ∧
    ∀ team : TeamIndex, tally Hit.side Hit.points (hits l) team < 2 ^ 31)
    ⟨fun ⟨h₁, h₂, h₃⟩ => ⟨h₁, h₂, h₃⟩, fun h => ⟨h.nonneg, h.damageBy_lt, h.damageFor_lt⟩⟩

namespace Fits

variable {l : List Call} (h : Fits l)

include h

theorem damageBy_nonneg (j : Slot) : 0 ≤ damageBy l j := tally_nonneg Hit.dealer h.nonneg j

theorem damageFor_nonneg (team : TeamName) : 0 ≤ damageFor l team :=
  tally_nonneg Hit.side h.nonneg team.toIndex

theorem toInt_roundDamageSelf (j : Slot) :
    ((RoundState.ofCalls l).roundDamageSelf j).toInt = damageBy l j :=
  toInt_tally Hit.dealer h.nonneg (h.damageBy_lt j)

theorem toInt_roundDamageTeam (team : TeamName) :
    ((RoundState.ofCalls l).roundDamageTeam team.toIndex).toInt = damageFor l team :=
  toInt_tally Hit.side h.nonneg (h.damageFor_lt team.toIndex)

end Fits

/-! ## Who is paid -/

namespace Settlement

variable (e : Settlement) (g : Server)

/-- The slots of the winners. -/
def winners : Finset Slot := Finset.univ.filter (e.Wins g)

@[simp] theorem mem_winners {j : Slot} : j ∈ e.winners g ↔ e.Wins g j := by
  simp [winners]

/-- The index of the player who completed the objective, or `-1`. -/
def bomber (ρ : RoundState) : ℤ :=
  if e.event = .bombDefused then ρ.roundBombDefuser
  else if e.event = .targetBomb then ρ.roundBombPlanter
  else -1

/-- The extra share of the player who completed the objective. -/
def bonus (ρ : RoundState) (j : Slot) : ℚ :=
  if (j.val : ℤ) = e.bomber ρ ∧ (g.playerAt j).isSome then 3 / 10 else 0

/-- The part of the payment that goes by damage. -/
def scale : ℚ := if e.isObjective then 7 / 10 else 1

variable {e g}

theorem objectiveShare_eq (ρ : RoundState) (j : Slot) :
    e.objectiveShare g ρ j = (e.bonus g ρ j : WithTop ℚ) := by
  unfold objectiveShare bonus bomber bomberShare
  split_ifs with h₁ h₂ h₃ <;> simp_all

theorem scale_nonneg (e : Settlement) : 0 ≤ e.scale := by
  unfold scale
  split_ifs <;> norm_num

/-- Without an objective there is no bomber. -/
theorem bomber_eq_neg_one (h : ¬ e.isObjective) (ρ : RoundState) : e.bomber ρ = -1 := by
  have hevent : e.event ≠ .bombDefused ∧ e.event ≠ .targetBomb := by
    simpa [isObjective] using h
  rw [bomber, if_neg hevent.1, if_neg hevent.2]

/-- The extra share is paid once, if there is a player behind the index. -/
theorem sum_bonus (ρ : RoundState) :
    ∑ j, e.bonus g ρ j = if (g.playerByIndexSafe (e.bomber ρ)).isSome then 3 / 10 else 0 := by
  unfold bonus
  -- the summand is zero but for the slot of the player behind the index
  rcases hp : g.playerByIndexSafe (e.bomber ρ) with _ | p
  · exact Finset.sum_eq_zero fun j _ => if_neg (Server.not_val_eq_and_isSome hp j)
  · simp only [Server.val_eq_and_isSome_iff hp]
    simp

end Settlement

/-- The player who completed the objective of the round `l`. -/
def Settlement.hero (e : Settlement) (l : List Call) : Option CBasePlayer :=
  if e.event = .bombDefused then defuser l
  else if e.event = .targetBomb then planter l
  else none

variable {e : Settlement} {g : Server} {l : List Call}

/-- The index of the bomber is the one of the player who completed the objective. -/
theorem bomber_ofCalls : e.bomber (.ofCalls l) = (e.hero l).elim (-1) CBasePlayer.entindex := by
  unfold Settlement.bomber Settlement.hero
  split_ifs <;> rfl

/-! ## What is paid -/

theorem floatDiv_eq {x y : CInt} {m n : ℤ} (hx : x.toInt = m) (hy : y.toInt = n) (hn : 0 < n) :
    CStats.floatDiv x y = ((m / n : ℚ) : WithTop ℚ) := by
  have hne : y ≠ 0 := by
    rintro rfl
    exact absurd hy (by simp; omega)
  rw [CStats.floatDiv, if_neg hne, hx, hy]

/-- The share of a winner in the damage of its team, where no division is by zero. -/
theorem damageShare_eq (hfits : Fits l) (j : Slot)
    (hpos : e.Wins g j → 0 < damageBy l j → 0 < damageFor l e.winner) :
    e.damageShare g (.ofCalls l) j =
      ((if e.Wins g j then e.scale * (damageBy l j / damageFor l e.winner) else 0 : ℚ) :
        WithTop ℚ) := by
  unfold Settlement.damageShare
  rw [hfits.toInt_roundDamageSelf]
  by_cases hwins : e.Wins g j
  · rcases (hfits.damageBy_nonneg j).eq_or_lt with hzero | hdealt
    · -- the source skips a winner without damage, whose part is zero
      simp [hwins, ← hzero]
    · have hquot : e.quotient (.ofCalls l) j =
          ((damageBy l j / damageFor l e.winner : ℚ) : WithTop ℚ) :=
        floatDiv_eq (hfits.toInt_roundDamageSelf j) (hfits.toInt_roundDamageTeam e.winner)
          (hpos hwins hdealt)
      rw [if_pos ⟨hwins, hdealt⟩, hquot, if_pos hwins, Settlement.scale]
      split_ifs
      · rfl
      · rw [one_mul]
  · simp [hwins]

/-- What a settlement of the round `l` pays to a slot, as a rational: the extra share, and for a
winner its part of the damage of the team. -/
def Settlement.payment (e : Settlement) (g : Server) (l : List Call) (j : Slot) : ℚ :=
  e.bonus g (.ofCalls l) j +
    if e.Wins g j then e.scale * (damageBy l j / damageFor l e.winner) else 0

/-- **The payment to a slot**, where no division is by zero. -/
theorem pays_eq (hfits : Fits l)
    (hpos : ∀ j, e.Wins g j → 0 < damageBy l j → 0 < damageFor l e.winner) (j : Slot) :
    Event.pays g (.ofCalls l) j (.settle e) = (e.payment g l j : WithTop ℚ) := by
  rw [Event.pays, Settlement.objectiveShare_eq, damageShare_eq hfits j (hpos j),
    Settlement.payment, WithTop.coe_add]

/-- **The payments of a settlement**: the extra share, and the winners' part of the damage of
their team. -/
theorem sum_payment : ∑ j, e.payment g l j = ∑ j, e.bonus g (.ofCalls l) j +
    e.scale * ((∑ j ∈ e.winners g, damageBy l j : ℤ) / damageFor l e.winner) := by
  simp only [Settlement.payment, Finset.sum_add_distrib]
  rw [Settlement.winners, Int.cast_sum, Finset.sum_div, Finset.mul_sum, Finset.sum_filter]

end StatsX
