import StatsX.Spec.Share

/-!
# Damage to oneself

A player that kills itself has made no kill, but a player that hits itself has dealt damage: the hit
goes into `m_RoundDamageSelf` and `m_RoundDamageTeam` as any other, and when the round is settled it
counts in the player's own part of the team's damage and takes from the parts of the others.

## Main definitions

* `selfHit`: a player hits itself
* `Hit.Harmless`: the hit does not change what a settlement pays
* `NeverShifts`: this is so at every settlement of the round in which the hit is put

## Main results

* `pays_turns_hit_iff`: a settlement pays the same with a hit and without it exactly when the hit is
  harmless
* `sameShares_of_neverShifts`: a hit of oneself, put anywhere in a run, leaves the shares at the end
  when it never shifts a settlement
-/

namespace StatsX

/-! ## Parts of the damage -/

/-- A part `x` of `y` is paid the same as `x'` of `y'`: both are nothing, or the quotients agree. -/
def SamePart (x y x' y' : CInt) : Prop :=
  (x.toInt ≤ 0 ∧ x'.toInt ≤ 0) ∨
    (0 < x.toInt ∧ 0 < x'.toInt ∧ x.toInt * y'.toInt = x'.toInt * y.toInt)

section

variable {x y x' y' : CInt}

theorem toInt_eq_zero_iff {z : CInt} : z.toInt = 0 ↔ z = 0 := by
  have hzero : (0 : CInt).toInt = 0 := BitVec.toInt_zero
  rw [← hzero, BitVec.toInt_inj]

theorem floatDiv_eq_iff (hx : 0 < x.toInt) (hx' : 0 < x'.toInt) :
    CStats.floatDiv x' y' = CStats.floatDiv x y ↔ x.toInt * y'.toInt = x'.toInt * y.toInt := by
  unfold CStats.floatDiv
  by_cases hy : y = 0 <;> by_cases hy' : y' = 0
  · simp [hy, hy']
  · simp [hy, hx.ne', toInt_eq_zero_iff]
  · simp [hy', hx'.ne', toInt_eq_zero_iff]
  · have hq : (y.toInt : ℚ) ≠ 0 := by exact_mod_cast mt toInt_eq_zero_iff.mp hy
    have hq' : (y'.toInt : ℚ) ≠ 0 := by exact_mod_cast mt toInt_eq_zero_iff.mp hy'
    rw [if_neg hy, if_neg hy', WithTop.coe_inj, div_eq_div_iff hq' hq, eq_comm]
    norm_cast

theorem floatDiv_ne_zero (hx : 0 < x.toInt) : CStats.floatDiv x y ≠ 0 := by
  unfold CStats.floatDiv
  split_ifs with hy
  · exact WithTop.top_ne_zero
  · have hdiv : (x.toInt : ℚ) / y.toInt ≠ 0 :=
      div_ne_zero (by exact_mod_cast hx.ne') (by exact_mod_cast mt toInt_eq_zero_iff.mp hy)
    exact_mod_cast hdiv

/-- A dividend over two divisors. -/
theorem samePart_self : SamePart x y x y' ↔ x.toInt ≤ 0 ∨ y' = y := by
  rcases le_or_gt x.toInt 0 with hx | hx
  · exact iff_of_true (.inl ⟨hx, hx⟩) (.inl hx)
  · have hcancel : x.toInt * y'.toInt = x.toInt * y.toInt ↔ y' = y := by
      rw [mul_right_inj' hx.ne', BitVec.toInt_inj]
    simp [SamePart, hx, not_le.mpr hx, hcancel]

end

namespace Settlement

variable (e : Settlement) {g : Server} {ρ ρ' : RoundState} {j : Slot}

/-- What a winner is paid for the quotient of its damage. -/
def scaled (q : WithTop ℚ) : WithTop ℚ :=
  if e.isObjective then q.map (managerRwsMapTarget * ·) else q

theorem scaled_inj {q q' : WithTop ℚ} : e.scaled q = e.scaled q' ↔ q = q' := by
  unfold scaled
  split_ifs
  · refine (WithTop.map_injective ?_).eq_iff
    exact mul_right_injective₀ (by norm_num [managerRwsMapTarget])
  · rfl

theorem scaled_zero : e.scaled 0 = 0 := by
  unfold scaled
  split_ifs
  · exact congrArg WithTop.some (mul_zero _)
  · rfl

variable {e}

theorem damageShare_eq_scaled : e.damageShare g ρ j =
    if e.Wins g j ∧ 0 < (ρ.roundDamageSelf j).toInt then e.scaled (e.quotient ρ j) else 0 := rfl

/-- **A winner is paid the same for two rounds** when its damage is the same part in both. -/
theorem damageShare_eq_iff : e.damageShare g ρ' j = e.damageShare g ρ j ↔ (e.Wins g j →
    SamePart (ρ.roundDamageSelf j) (ρ.roundDamageTeam e.winner.toIndex)
      (ρ'.roundDamageSelf j) (ρ'.roundDamageTeam e.winner.toIndex)) := by
  rw [damageShare_eq_scaled, damageShare_eq_scaled]
  by_cases hwins : e.Wins g j
  swap
  · simp [hwins]
  -- what is paid for a positive damage is not nothing
  have hne : ∀ σ : RoundState, 0 < (σ.roundDamageSelf j).toInt →
      e.scaled (e.quotient σ j) ≠ 0 := fun σ hσ h => by
    rw [← e.scaled_zero, e.scaled_inj] at h
    exact floatDiv_ne_zero hσ h
  unfold SamePart
  rcases lt_or_ge 0 (ρ.roundDamageSelf j).toInt with hx | hx <;>
    rcases lt_or_ge 0 (ρ'.roundDamageSelf j).toInt with hx' | hx'
  · simp only [hwins, hx, hx', true_and, if_true, e.scaled_inj, forall_const, not_le.mpr hx,
      false_and, false_or]
    exact floatDiv_eq_iff hx hx'
  · simp [hwins, hx, hx', not_lt.mpr hx', not_le.mpr hx, (hne ρ hx).symm]
  · simp [hwins, hx, hx', not_lt.mpr hx, not_le.mpr hx', hne ρ' hx']
  · simp [hx, hx', not_lt.mpr hx, not_lt.mpr hx']

end Settlement

/-! ## A hit before a settlement -/

/-- **The hit does not change what the settlement pays** for the round members `ρ`: it is not for
the winners when another of them is paid for damage, and a winner in the attacker's slot gets the
same part of the team's damage as before. -/
structure Hit.Harmless (h : Hit) (e : Settlement) (g : Server) (ρ : RoundState) : Prop where
  others : h.attacker.team = e.winner → h.amount ≠ 0 → ∀ j, e.Wins g j → j ≠ h.attacker.slot →
    (ρ.roundDamageSelf j).toInt ≤ 0
  own : e.Wins g h.attacker.slot →
    SamePart (ρ.roundDamageSelf h.attacker.slot) (ρ.roundDamageTeam e.winner.toIndex)
      (ρ.roundDamageSelf h.attacker.slot + h.amount)
      (ρ.roundDamageTeam e.winner.toIndex + if h.attacker.team = e.winner then h.amount else 0)

section

variable {h : Hit} {e : Settlement} {g : Server} {ρ : RoundState}

/-- A hit that is not for the winners, of a player in whose slot none of them is, is harmless. -/
theorem harmless_of_not_wins (hteam : h.attacker.team ≠ e.winner)
    (hwins : ¬ e.Wins g h.attacker.slot) : h.Harmless e g ρ :=
  ⟨fun hwinner => absurd hwinner hteam, fun hown => absurd hown hwins⟩

theorem bonus_turns_hit (j : Slot) : e.bonus g (Event.turns ρ (.hit h)) j = e.bonus g ρ j := rfl

theorem roundDamageSelf_turns_hit (j : Slot) : (Event.turns ρ (.hit h)).roundDamageSelf j =
    ρ.roundDamageSelf j + if j = h.attacker.slot then h.amount else 0 := rfl

theorem roundDamageTeam_turns_hit (team : TeamName) :
    (Event.turns ρ (.hit h)).roundDamageTeam team.toIndex =
      ρ.roundDamageTeam team.toIndex + if h.attacker.team = team then h.amount else 0 := by
  simp [Event.turns, eq_comm]

/-- A settlement pays a slot the same with a hit and without it when a winner there has the same
part of the team's damage. -/
theorem pays_turns_hit (j : Slot) : Event.pays g (Event.turns ρ (.hit h)) j (.settle e) =
    Event.pays g ρ j (.settle e) ↔ (e.Wins g j →
      SamePart (ρ.roundDamageSelf j) (ρ.roundDamageTeam e.winner.toIndex)
        (ρ.roundDamageSelf j + if j = h.attacker.slot then h.amount else 0)
        (ρ.roundDamageTeam e.winner.toIndex +
          if h.attacker.team = e.winner then h.amount else 0)) := by
  rw [Event.pays, Event.pays, Settlement.objectiveShare_eq, Settlement.objectiveShare_eq,
    bonus_turns_hit, WithTop.add_left_inj WithTop.coe_ne_top, Settlement.damageShare_eq_iff,
    roundDamageSelf_turns_hit, roundDamageTeam_turns_hit]

/-- **A settlement pays the same with a hit and without it** exactly when the hit is harmless. -/
theorem pays_turns_hit_iff : (∀ j, Event.pays g (Event.turns ρ (.hit h)) j (.settle e) =
    Event.pays g ρ j (.settle e)) ↔ h.Harmless e g ρ := by
  simp only [pays_turns_hit]
  constructor
  · intro hall
    constructor
    · intro hteam hamount j hwins hj
      have hsame := hall j hwins
      rw [if_neg hj, add_zero, if_pos hteam, samePart_self] at hsame
      exact hsame.resolve_right fun heq => hamount (add_eq_left.mp heq)
    · intro hwins
      have hsame := hall h.attacker.slot hwins
      rwa [if_pos rfl] at hsame
  · intro hharmless j hwins
    by_cases hj : j = h.attacker.slot
    · subst hj
      rw [if_pos rfl]
      exact hharmless.own hwins
    · rw [if_neg hj, add_zero, samePart_self]
      -- the divisor moves only by a hit for the winners, and then nothing is divided by it
      by_cases hmoves : h.attacker.team = e.winner ∧ h.amount ≠ 0
      · exact .inl (hharmless.others hmoves.1 hmoves.2 j hwins hj)
      · right
        rw [add_eq_left, ite_eq_right_iff]
        intro hteam
        by_contra hamount
        exact hmoves ⟨hteam, hamount⟩

end

/-! ## A hit put into a run -/

/-- A player hits itself. -/
def selfHit (g : Server) (player : CBasePlayer) (pevInflictor : Option ℤ) : Call :=
  ⟨g, .takeDamage (some player) pevInflictor (some player.entindex)⟩

/-- Put between the calls `p` and `q` of a run, the hit of the call `c` is harmless at every
settlement in `q` before the next start of a round. -/
def NeverShifts (c : Call) (p q : List Call) (s₀ : CStats) : Prop :=
  ∀ h, c.event? = some (.hit h) → ∀ q' d e t, q' ++ [d] <+: q →
    q'.any Call.startsRound = false → d.event? = some (.settle e) →
      run Call.exec (p ++ q') s₀ = .ok t → h.Harmless e d.server t.toRoundState

/-- The calls `q` take `t` and `t'` side by side, `t'` ahead by the hit of the call `c` until a
round starts, with the same shares. -/
structure Ahead (c : Call) (q : List Call) (t t' : CStats) : Prop where
  share : ∀ j, (t'.data j).roundWinShare = (t.data j).roundWinShare
  round : t'.toRoundState =
    if q.any Call.startsRound then t.toRoundState else c.turns t.toRoundState

section

variable {c d : Call} {q : List Call} {s t u t' u' : CStats}

/-- A hit pays no share. -/
theorem share_of_selfHit {g : Server} {player : CBasePlayer} {pevInflictor : Option ℤ}
    (h : (selfHit g player pevInflictor).exec s = .ok t) (j : Slot) :
    (t.data j).roundWinShare = (s.data j).roundWinShare := by
  rw [(Call.exec_ok h).share, if_neg (by simp [selfHit, Call.resets]), Call.pays]
  rcases he : (selfHit g player pevInflictor).event? with _ | event
  · rw [Option.elim_none, add_zero]
  · obtain ⟨hit, rfl⟩ := Call.event?_takeDamage rfl he
    rw [Option.elim_some]
    exact add_zero _

/-- A call that starts no round keeps the hit ahead. -/
theorem turns_turns (hc : ∀ event, c.event? = some event → ∃ h, event = .hit h)
    (hd : d.startsRound = false) (ρ : RoundState) : d.turns (c.turns ρ) = c.turns (d.turns ρ) := by
  unfold Call.turns
  rcases hce : c.event? with _ | event
  · rfl
  obtain ⟨h, rfl⟩ := hc event hce
  rcases hde : d.event? with _ | event
  · rfl
  refine turns_hit_comm h ?_ ρ
  rintro rfl
  rw [Call.startsRound_iff.mpr hde] at hd
  exact Bool.noConfusion hd

/-- **One step** keeps the runs side by side, when a settlement pays the same in both. -/
theorem Ahead.exec (h : Ahead c q t t') (hc : ∀ event, c.event? = some event → ∃ h, event = .hit h)
    (hpays : ∀ j, d.pays t'.toRoundState j = d.pays t.toRoundState j)
    (hu : d.exec t = .ok u) (hu' : d.exec t' = .ok u') : Ahead c (q ++ [d]) u u' := by
  have hout := Call.exec_ok hu
  have hout' := Call.exec_ok hu'
  constructor
  · intro j
    rw [hout'.share, hout.share, h.share, hpays]
  · rw [hout'.round, hout.round, h.round, List.any_append]
    cases hstart : d.startsRound with
    | true =>
      -- the start overwrites what the hit has put ahead
      simp only [Call.turns, Call.startsRound_iff.mp hstart, Option.elim_some, List.any_cons,
        hstart, Bool.true_or, Bool.or_true, if_true]
      rfl
    | false =>
      simp only [List.any_cons, hstart, List.any_nil, Bool.or_self, Bool.or_false]
      split_ifs
      · rfl
      · exact turns_turns hc hstart _

/-- What a call pays is the same with the hit ahead, if the hit is harmless at a settlement. -/
theorem Ahead.pays (h : Ahead c q t t') (hc : ∀ event, c.event? = some event → ∃ h, event = .hit h)
    (hharmless : ∀ h, c.event? = some (.hit h) → ∀ e, q.any Call.startsRound = false →
      d.event? = some (.settle e) → h.Harmless e d.server t.toRoundState) (j : Slot) :
    d.pays t'.toRoundState j = d.pays t.toRoundState j := by
  rw [h.round]
  split_ifs with hstart
  · rfl
  unfold Call.turns
  rcases hce : c.event? with _ | event
  · rw [Option.elim_none]
  obtain ⟨hit, rfl⟩ := hc event hce
  unfold Call.pays
  rcases hde : d.event? with _ | event
  · rw [Option.elim_none, Option.elim_none]
  cases event with
  | settle e =>
    have hhit := hharmless hit hce e (Bool.eq_false_of_not_eq_true hstart) hde
    exact pays_turns_hit_iff.mpr hhit j
  | _ => simp only [Option.elim_some, Event.pays]

end

/-- **A hit of oneself, put anywhere in a run, leaves the shares** at the end, when it never shifts
a settlement. -/
theorem sameShares_of_neverShifts {g : Server} {player : CBasePlayer} {pevInflictor : Option ℤ}
    {p q : List Call} {s₀ s s' : CStats}
    (hnever : NeverShifts (selfHit g player pevInflictor) p q s₀)
    (h : run Call.exec (p ++ q) s₀ = .ok s)
    (h' : run Call.exec (p ++ selfHit g player pevInflictor :: q) s₀ = .ok s') (j : Slot) :
    (s'.data j).roundWinShare = (s.data j).roundWinShare := by
  have hc : ∀ event, (selfHit g player pevInflictor).event? = some event → ∃ h, event = .hit h :=
    fun event he => Call.event?_takeDamage rfl he
  obtain ⟨t, ht, hq⟩ := run_append_ok_iff.mp h
  obtain ⟨t₁, ht₁, hq'⟩ := run_append_ok_iff.mp h'
  obtain rfl : t = t₁ := Except.ok.inj (ht.symm.trans ht₁)
  obtain ⟨t', hhit, hq'⟩ := bind_ok_iff.mp hq'
  -- the hit puts the second run ahead, and each call of `q` keeps it there
  refine (run_simulation (R := Ahead (selfHit g player pevInflictor))
    ⟨share_of_selfHit hhit, (Call.exec_ok hhit).round⟩ ?_ hq hq').share j
  intro q' d u u' v v' hprefix hu hahead hv hv'
  refine hahead.exec hc (hahead.pays hc fun hit hce e hstart hde => ?_) hv hv'
  exact hnever hit hce q' d e u hprefix hstart hde (run_append_ok_iff.mpr ⟨t, ht, hu⟩)

/-! ## A share by one's own wounds -/

/-- The terrorist of the duel hits itself for 30. -/
def duelSelfHit : Call :=
  selfHit (.ofPlayers [{ duelT with lastDamageAmount := 30 }, duelCt])
    { duelT with lastDamageAmount := 30 } none

/-- The terrorist wins a share of the round by its own wounds. -/
theorem selfHit_shifts : ∃ s s', run Call.exec ([] ++ [duelEnd]) CStats.initial = .ok s ∧
    run Call.exec ([] ++ duelSelfHit :: [duelEnd]) CStats.initial = .ok s' ∧
      (s'.data 1).roundWinShare ≠ (s.data 1).roundWinShare := by
  obtain ⟨s, hs, hzero⟩ : ∃ s, Reaches ([] ++ [duelEnd]) s ∧ (s.data 1).roundWinShare = 0 :=
    exists_reaches_and (by decide +kernel)
  obtain ⟨s', hs', hone⟩ : ∃ s', Reaches ([] ++ duelSelfHit :: [duelEnd]) s' ∧
      (s'.data 1).roundWinShare = 1 := exists_reaches_and (by decide +kernel)
  refine ⟨s, s', hs, hs', ?_⟩
  rw [hone, hzero]
  exact one_ne_zero

/-- The counter-terrorist of the duel hits itself. -/
def loserSelfHit : Call := selfHit duelHit.server duelCt none

/-- The hit of the one that loses is harmless. -/
theorem neverShifts_duel : NeverShifts loserSelfHit [duelHit] [duelEnd] CStats.initial := by
  intro h hh q' d e t hprefix _ he _
  obtain rfl : (⟨duelCt, duelCt⟩ : Hit) = h := Event.hit.inj (Option.some.inj hh)
  obtain ⟨rfl, rfl⟩ := concat_prefix_singleton_iff.mp hprefix
  obtain rfl : duelSettlement = e :=
    Event.settle.inj (Option.some.inj (event?_duelEnd.symm.trans he))
  exact harmless_of_not_wins (by decide) (by decide)

/-- The one that loses hits itself after it has been hit. -/
theorem sameShares_duel : ∃ s s', run Call.exec ([duelHit] ++ [duelEnd]) CStats.initial = .ok s ∧
    run Call.exec ([duelHit] ++ loserSelfHit :: [duelEnd]) CStats.initial = .ok s' ∧
      (s'.data 1).roundWinShare = (s.data 1).roundWinShare := by
  obtain ⟨s, hs⟩ : ∃ s, Reaches ([duelHit] ++ [duelEnd]) s := exists_reaches rfl
  obtain ⟨s', hs'⟩ : ∃ s', Reaches ([duelHit] ++ loserSelfHit :: [duelEnd]) s' :=
    exists_reaches rfl
  exact ⟨s, s', hs, hs', sameShares_of_neverShifts neverShifts_duel hs hs' 1⟩

end StatsX
