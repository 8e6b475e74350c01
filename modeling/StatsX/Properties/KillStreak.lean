import Mathlib.Algebra.Order.BigOperators.Group.Finset
import Mathlib.Tactic.Linarith
import StatsX.Lib.Word
import StatsX.Spec.Ledger

/-!
# The kill-streak histogram

`RoundEnd` counts the kills that each player has made in the round into `KillStreak`. Every kill
is to be counted once, in the record of the player who made it, so that the histogram stands for
at most `Frags` kills. A second `RoundEnd` in one round counts the kills of the round again, and a
reset of a record in the middle of a round leaves the kills of the round to the next player.

## Main definitions

* `CPlayer.claimed`: the kills that the histogram of a record stands for
* `unpaid calls j`: the kills of the round that are neither counted yet nor made before a reset
* `PaysOnce calls`: each settlement finds only such kills in the round

## Main results

* `claimed_add_unpaid_le`: claimed and unpaid kills are together at most those of the record
* `neverOverclaims_of_paysOnce`: a run whose settlements pay once never overclaims
-/

namespace StatsX

/-- The kills that the histogram of a record stands for. -/
def CPlayer.claimed (r : CPlayer) : ℤ := ∑ n, (n.val : ℤ) * (r.killStreak n).toInt

/-- No histogram stands for more kills than its record counts. -/
def NeverOverclaims (s : CStats) : Prop := ∀ j, (s.data j).claimed ≤ (s.data j).frags.toInt

/-- The call settles a round for the player in slot `j`. -/
def Call.settlesFor (c : Call) (j : Slot) : Bool :=
  match c.event? with
  | some (.settle _) => (c.server.playerAt j).isSome
  | _ => false

/-- The kills of the player in slot `j` since the last start of a round, reset of the record or
settlement for the slot. -/
def unpaid (calls : List Call) (j : Slot) : ℕ :=
  killCount (since (fun c => c.startsRound || c.resets j || c.settlesFor j) calls) j

/-- The kills of the player in slot `j` since the last reset of the record. -/
def earned (calls : List Call) (j : Slot) : ℕ := killCount (since (Call.resets · j) calls) j

/-- Whenever a round is settled for a slot, the kills of the round in that slot were made since
the last reset of the record and the last settlement, and no record counts `2 ^ 31` kills. -/
def PaysOnce (calls : List Call) : Prop :=
  (∀ p c, p ++ [c] <+: calls → ∀ j, c.settlesFor j = true →
    killCount (thisRound p) j = unpaid p j) ∧
  ∀ p, p <+: calls → ∀ j, earned p j < 2 ^ 31

/-! ## Paying a histogram -/

/-- The entries of a histogram that stand for kills are not negative. -/
def CPlayer.StreaksNonneg (r : CPlayer) : Prop := ∀ n, 0 < n.val → 0 ≤ (r.killStreak n).toInt

/-- An entry stands for at most the kills of its histogram. -/
theorem CPlayer.entry_le_claimed {r : CPlayer} (h : r.StreaksNonneg) {k : Fin (maxClients + 1)} :
    (k.val : ℤ) * (r.killStreak k).toInt ≤ r.claimed := by
  refine Finset.single_le_sum (f := fun n : Fin (maxClients + 1) =>
    (n.val : ℤ) * (r.killStreak n).toInt) (fun n _ => ?_) (Finset.mem_univ k)
  rcases Nat.eq_zero_or_pos n.val with hn | hn
  · simp [hn]
  · exact mul_nonneg (Int.natCast_nonneg _) (h n hn)

/-- **One more in an entry** stands for as many more kills as the entry says, short of a wrap. -/
theorem CPlayer.claimed_pay {r r' : CPlayer} {k : Fin (maxClients + 1)} (hk : 0 < k.val)
    (h : ∀ n, r'.killStreak n = r.killStreak n + if n = k then 1 else 0) (hr : r.StreaksNonneg)
    (hroom : r.claimed + k.val < 2 ^ 31) :
    r'.StreaksNonneg ∧ r'.claimed = r.claimed + k.val := by
  -- an entry is at most the kills it stands for, so that it does not wrap
  have hle := entry_le_claimed hr (k := k)
  have hlt : (r.killStreak k).toInt + 1 < 2 ^ 31 := by
    have hk₁ : (1 : ℤ) ≤ k.val := by exact_mod_cast hk
    nlinarith [hr k hk]
  have hone : (r'.killStreak k).toInt = (r.killStreak k).toInt + 1 := by
    rw [h k, if_pos rfl]
    exact toInt_add_of_lt (hr k hk) (by decide) hlt
  have hother : ∀ n, n ≠ k → (r'.killStreak n).toInt = (r.killStreak n).toInt := by
    intro n hn
    rw [h n, if_neg hn, add_zero]
  constructor
  · intro n hn
    by_cases hnk : n = k
    · subst hnk
      have := hr n hn
      omega
    · rw [hother n hnk]
      exact hr n hn
  · have hterm : ∀ n : Fin (maxClients + 1), (n.val : ℤ) * (r'.killStreak n).toInt =
        (n.val : ℤ) * (r.killStreak n).toInt + if n = k then (k.val : ℤ) else 0 := by
      intro n
      by_cases hnk : n = k
      · subst hnk
        rw [hone, if_pos rfl, mul_add, mul_one]
      · rw [hother n hnk, if_neg hnk, add_zero]
    simp only [claimed, hterm, Finset.sum_add_distrib, Finset.sum_ite_eq', Finset.mem_univ, if_true]

theorem CPlayer.claimed_nonneg {r : CPlayer} (h : r.StreaksNonneg) : 0 ≤ r.claimed := by
  apply Finset.sum_nonneg
  intro n _
  rcases Nat.eq_zero_or_pos n.val with hn | hn
  · simp [hn]
  · exact mul_nonneg (Int.natCast_nonneg _) (h n hn)

/-! ## What a call does to a histogram -/

theorem Call.posts_killStreak (c : Call) (ρ : RoundState) (j : Slot) (n : Fin (maxClients + 1)) :
    c.posts ρ j (.killStreak n) =
      if c.settlesFor j ∧ 0 < (ρ.roundFrags j).toInt ∧ (n.val : ℤ) = (ρ.roundFrags j).toInt then 1
      else 0 := by
  unfold posts settlesFor
  rcases c.event? with _ | e
  · simp
  cases e with
  | settle e =>
    simp only [Option.elim_some, Event.posts, Settlement.posts]
    cases c.server.playerAt j <;> simp [Settlement.postsAt]
  | _ => simp [Event.posts, Hit.posts, Kill.posts]

/-- A settlement that succeeds has found an entry for the kills it counts. -/
theorem streakInBounds_of_exec {c : Call} {t t' : CStats} (ht : c.exec t = .ok t') {j : Slot}
    (h : c.settlesFor j = true) : StreakInBounds (t.roundFrags j) := by
  unfold Call.settlesFor at h
  split at h
  · rename_i e he
    obtain ⟨temp, htemp⟩ := Option.isSome_iff_exists.mp h
    exact ((c.exec_defined t).mp ⟨t', ht⟩ _ he j temp htemp).1
  · simp at h

theorem earned_concat (p : List Call) (c : Call) (j : Slot) :
    earned (p ++ [c]) j = if c.resets j then 0 else earned p j + c.killsBy j := by
  rw [earned, since_concat]
  split_ifs
  · rfl
  · exact killCount_concat _ _ _

theorem unpaid_concat (p : List Call) (c : Call) (j : Slot) :
    unpaid (p ++ [c]) j = if c.startsRound || c.resets j || c.settlesFor j then 0
      else unpaid p j + c.killsBy j := by
  rw [unpaid, since_concat]
  split_ifs
  · rfl
  · exact killCount_concat _ _ _

/-- After the calls `p`, the histogram of the record `r` and the kills it is still owed are
covered by the kills it has earned. -/
def Solvent (p : List Call) (r : CPlayer) (j : Slot) : Prop :=
  r.StreaksNonneg ∧ r.claimed + unpaid p j ≤ earned p j

/-- A call that leaves the histogram alone. -/
theorem Solvent.of_killStreak_eq {p : List Call} {c : Call} {r r' : CPlayer} {j : Slot}
    (h : Solvent p r j) (hreset : c.resets j = false) (heq : r'.killStreak = r.killStreak) :
    Solvent (p ++ [c]) r' j := by
  have hclaimed : r'.claimed = r.claimed := by rw [CPlayer.claimed, heq, CPlayer.claimed]
  refine ⟨fun n hn => by rw [heq]; exact h.1 n hn, ?_⟩
  have hle := h.2
  simp only [hclaimed, unpaid_concat, earned_concat, hreset, Bool.false_eq_true, if_false]
  split_ifs <;> push_cast <;> omega

/-- A call that resets the record. -/
theorem Solvent.of_reset {p : List Call} {c : Call} {r' : CPlayer} {j : Slot}
    (hreset : c.resets j = true) (hzero : ∀ n, r'.killStreak n = 0) : Solvent (p ++ [c]) r' j := by
  refine ⟨fun n _ => by simp [hzero], ?_⟩
  rw [unpaid_concat, earned_concat]
  simp [hreset, CPlayer.claimed, hzero]

/-- A settlement that pays the kills the record is owed. -/
theorem Solvent.of_pay {p : List Call} {c : Call} {r r' : CPlayer} {j : Slot} (h : Solvent p r j)
    (hreset : c.resets j = false) (hsettles : c.settlesFor j = true)
    (hbound : unpaid p j ≤ maxClients) (hroom : earned p j < 2 ^ 31)
    (hpay : ∀ n, r'.killStreak n = r.killStreak n +
      if 0 < (unpaid p j : ℤ) ∧ (n.val : ℤ) = unpaid p j then 1 else 0) :
    Solvent (p ++ [c]) r' j := by
  have hnonneg := CPlayer.claimed_nonneg h.1
  have hle := h.2
  rcases Nat.eq_zero_or_pos (unpaid p j) with hzero | hpos
  · exact h.of_killStreak_eq hreset (funext fun n => by simp [hpay, hzero])
  · obtain ⟨hstreaks, hclaimed⟩ := CPlayer.claimed_pay (k := ⟨unpaid p j, Nat.lt_succ_of_le hbound⟩)
      hpos (fun n => by rw [hpay]; simp [hpos, Fin.ext_iff]) h.1 (by push_cast; omega)
    refine ⟨hstreaks, ?_⟩
    rw [hclaimed, unpaid_concat, earned_concat]
    simp [hreset, hsettles]
    omega

/-- **One step**: a call keeps a record solvent when it pays, if at all, what the record is owed. -/
theorem solvent_of_exec {p : List Call} {t t' : CStats} {c : Call} (hp : Reaches p t)
    (ht : c.exec t = .ok t') {j : Slot} (ih : Solvent p (t.data j) j)
    (hpays : c.settlesFor j = true → killCount (thisRound p) j = unpaid p j)
    (hroom : earned p j < 2 ^ 31) : Solvent (p ++ [c]) (t'.data j) j := by
  have hcell : ∀ n, (t'.data j).killStreak n =
      (if c.resets j then 0 else (t.data j).killStreak n) +
        c.posts t.toRoundState j (.killStreak n) := by
    intro n
    have := (Call.exec_ok ht).cell j (.killStreak n)
    rwa [Call.zeroes_eq_resets rfl] at this
  simp only [Call.posts_killStreak, round_of_reaches hp, roundFrags_ofCalls] at hcell
  -- a call resets the record, settles for it, or leaves its histogram alone
  cases hreset : c.resets j with
  | true =>
    have hsettles : c.settlesFor j = false := by
      simp [Call.settlesFor, Call.event?_eq_none_of_resets hreset]
    exact .of_reset hreset fun n => by simp [hcell, hreset, hsettles]
  | false =>
    cases hsettles : c.settlesFor j with
    | false =>
      exact ih.of_killStreak_eq hreset (funext fun n => by simp [hcell, hreset, hsettles])
    | true =>
      rw [hpays hsettles] at hcell
      have hnonneg := CPlayer.claimed_nonneg ih.1
      have hle := ih.2
      have hfrags : (BitVec.ofNat 32 (unpaid p j)).toInt = unpaid p j :=
        toInt_ofNat_of_lt (by omega)
      simp only [hreset, hsettles, Bool.false_eq_true, if_false, true_and, hfrags] at hcell
      -- the settlement has found an entry for the kills it pays
      have hbound : unpaid p j ≤ maxClients := by
        have := streakInBounds_of_exec ht hsettles
        rw [round_of_reaches hp, roundFrags_ofCalls, hpays hsettles, StreakInBounds, hfrags] at this
        exact_mod_cast this
      exact ih.of_pay hreset hsettles hbound hroom hcell

/-! ## Whole runs -/

/-- **Claimed and unpaid kills are together at most those of the record**, all along a run whose
settlements pay once. -/
theorem claimed_add_unpaid_le {calls : List Call} {s : CStats} (h : Reaches calls s)
    (hpays : PaysOnce calls) (j : Slot) : Solvent calls (s.data j) j := by
  refine run_induction (P := fun p t => Solvent p (t.data j) j) ?_ ?_ h
  · exact ⟨fun _ _ => le_refl _, by simp [CPlayer.claimed, CStats.initial, CPlayer.zeroed, unpaid,
      earned, killCount, kills]⟩
  · intro p c t t' hprefix hp ih ht
    exact solvent_of_exec hp ht ih (hpays.1 p c hprefix j)
      (hpays.2 p ((List.prefix_append p [c]).trans hprefix) j)

theorem PaysOnce.mono {p calls : List Call} (h : PaysOnce calls) (hp : p <+: calls) : PaysOnce p :=
  ⟨fun q c hq => h.1 q c (hq.trans hp), fun q hq => h.2 q (hq.trans hp)⟩

/-- **A run whose settlements pay once never overclaims**, in any of its states. -/
theorem neverOverclaims_of_paysOnce {calls : List Call} (hpays : PaysOnce calls) :
    ∀ p t, p <+: calls → Reaches p t → NeverOverclaims t := by
  intro p t hp ht j
  obtain ⟨-, hle⟩ := claimed_add_unpaid_le ht (hpays.mono hp) j
  have hroom := hpays.2 p hp j
  rw [frags_of_reaches ht j, toInt_ofNat_of_lt (by exact hroom)]
  have : (0 : ℤ) ≤ unpaid p j := Int.natCast_nonneg _
  exact le_trans (by omega) hle

/-- The duel is settled twice. -/
def doubleSettlement : List Call := [duelKill, duelEnd, duelEnd]

/-- One kill, counted twice. -/
theorem doubleSettlement_overclaims : ∃ s, Reaches doubleSettlement s ∧ ¬ NeverOverclaims s := by
  obtain ⟨s, hs, hover⟩ : ∃ s, Reaches doubleSettlement s ∧
      ¬ (s.data 1).claimed ≤ (s.data 1).frags.toInt := exists_reaches_and (by decide +kernel)
  exact ⟨s, hs, fun h => hover (h 1)⟩

theorem killCount_le_length (l : List Call) (j : Slot) : killCount l j ≤ l.length :=
  List.countP_le_length.trans (List.length_filterMap_le _ _)

theorem earned_le_length (p : List Call) (j : Slot) : earned p j ≤ p.length :=
  (killCount_le_length _ j).trans since_suffix.length_le

theorem paysOnce_duel : PaysOnce [duelKill, duelEnd] := by
  constructor
  · intro p c hp
    obtain ⟨i, hi, rfl, rfl⟩ := concat_prefix_iff.mp hp
    clear hp
    revert i
    decide +kernel
  · intro p hp j
    exact (earned_le_length p j).trans_lt (hp.length_le.trans_lt (by decide))

/-- A duel that is settled once. -/
theorem neverOverclaims_duel : ∃ s, Reaches [duelKill, duelEnd] s ∧ NeverOverclaims s := by
  obtain ⟨s, hs⟩ : ∃ s, Reaches [duelKill, duelEnd] s := exists_reaches rfl
  exact ⟨s, hs, neverOverclaims_of_paysOnce paysOnce_duel _ s (List.prefix_refl _) hs⟩

end StatsX
