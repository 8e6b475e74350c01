import StatsX.Model.Hooks
import StatsX.Spec.Share

/-!
# The kill that ends a round

A hit can kill and a kill can end the round, all before the hook of the hit returns. Each of the
three hooks records when its `callNext` has returned, so that the settlement is recorded first, the
kill second and the hit last. The settlement then misses both, unless neither would have counted.

## Main definitions

* `EndsInKill`: in a run of hooks, a settlement inside a kill inside a hit
* `PaysShares`, `SameCredits`: what a settlement credits, and two that credit the same
* `SettledAnyway`: neither the kill nor the hit counts for the settlement

## Main results

* `calls_of_endsInKill`: the settlement, the kill and the hit are recorded in this order
* `sameCredits_of_settledAnyway`: the settlement credits what it would have credited after the hit
  and the kill, when neither counts for it
-/

namespace StatsX

/-! ## The last kill of a round -/

/-- In the run, a kill inside a hit ends the round: after the calls `p`, the settlement is
recorded. -/
inductive EndsInKill (hooks : HookRun) : List Call → Call → Call → Call → Prop
  | intro {p₁ p₂ p₃ : List Call} {inner₁ inner₂ inner₃ : HookRun} {g₁ g₂ g₃ : Server}
    {victim victim' : Option CBasePlayer} {inflictor attacker : Option ℤ} {killer winStatus : ℤ}
    {event : ScenarioEventEndRound}
    (hit : hooks.Occurs p₁ (.takeDamage g₁ victim inflictor attacker) inner₁)
    (kill : inner₁.Occurs p₂ (.killed g₂ victim' killer) inner₂)
    (settle : inner₂.Occurs p₃ (.roundEnd g₃ winStatus event) inner₃) :
    EndsInKill hooks (p₁ ++ p₂ ++ p₃ ++ inner₃.calls)
      ⟨g₁, .takeDamage victim inflictor attacker⟩ ⟨g₂, .killed victim' killer⟩
      ⟨g₃, .roundEnd winStatus event⟩

/-- The settlement, the kill and the hit are recorded in this order. -/
theorem calls_of_endsInKill {hooks : HookRun} {p : List Call} {hit kill settle : Call}
    (h : EndsInKill hooks p hit kill settle) :
    ∃ q₁ q₂ q₃, hooks.calls = p ++ [settle] ++ q₁ ++ [kill] ++ q₂ ++ [hit] ++ q₃ := by
  obtain ⟨hit, kill, settle⟩ := h
  obtain ⟨q₃, h₃⟩ := HookRun.calls_of_occurs hit
  obtain ⟨q₂, h₂⟩ := HookRun.calls_of_occurs kill
  obtain ⟨q₁, h₁⟩ := HookRun.calls_of_occurs settle
  exact ⟨q₁, q₂, q₃, by simp [h₃, h₂, h₁, Hook.after]⟩

/-- From `t` to `u`, the call adds to each share what it pays for the round members of `t`. -/
def PaysShares (c : Call) (t u : CStats) : Prop :=
  ∀ j, (u.data j).roundWinShare = (t.data j).roundWinShare + c.pays t.toRoundState j

/-- A settlement from `t` to `u` credits the same kill streaks and the same shares as one from `t'`
to `u'`. -/
structure SameCredits (settle : Call) (t u t' u' : CStats) : Prop where
  killStreak : ∀ j n, (u.data j).killStreak n - (t.data j).killStreak n =
    (u'.data j).killStreak n - (t'.data j).killStreak n
  pays : PaysShares settle t u ∧ PaysShares settle t' u'
  share : ∀ j, settle.pays t.toRoundState j = settle.pays t'.toRoundState j

/-- Neither the kill nor the hit counts for the settlement: the kill is not recorded or its killer
has left the slot, and the hit is not recorded or is neither in a winner's slot nor for the winning
team. -/
structure SettledAnyway (hit kill settle : Call) : Prop where
  kill : ∀ e, settle.event? = some (.settle e) → ∀ k, kill.event? = some (.kill k) →
    settle.server.playerAt k.killer.slot = none
  hit : ∀ e, settle.event? = some (.settle e) → ∀ h, hit.event? = some (.hit h) →
    h.amount = 0 ∨ (¬ e.Wins settle.server h.attacker.slot ∧ h.attacker.team ≠ e.winner)

/-! ## What a settlement looks at -/

/-- The members that the settlement `e` looks at, for kill streaks and shares, are the same. -/
structure SameFor (e : Settlement) (g : Server) (ρ ρ' : RoundState) : Prop where
  frags : ∀ j, (g.playerAt j).isSome → ρ'.roundFrags j = ρ.roundFrags j
  self : ∀ j, e.Wins g j → ρ'.roundDamageSelf j = ρ.roundDamageSelf j
  team : ρ'.roundDamageTeam e.winner.toIndex = ρ.roundDamageTeam e.winner.toIndex
  bomber : e.bomber ρ' = e.bomber ρ

theorem SameFor.refl (e : Settlement) (g : Server) (ρ : RoundState) : SameFor e g ρ ρ :=
  ⟨fun _ _ => rfl, fun _ _ => rfl, rfl, rfl⟩

theorem SameFor.trans {e : Settlement} {g : Server} {ρ₁ ρ₂ ρ₃ : RoundState}
    (h : SameFor e g ρ₁ ρ₂) (h' : SameFor e g ρ₂ ρ₃) : SameFor e g ρ₁ ρ₃ where
  frags := fun j hj => (h'.frags j hj).trans (h.frags j hj)
  self := fun j hj => (h'.self j hj).trans (h.self j hj)
  team := h'.team.trans h.team
  bomber := h'.bomber.trans h.bomber

theorem SameFor.posts_killStreak {e : Settlement} {g : Server} {ρ ρ' : RoundState}
    (h : SameFor e g ρ ρ') (j : Slot) (n : Fin (maxClients + 1)) :
    e.posts g ρ' j (.killStreak n) = e.posts g ρ j (.killStreak n) := by
  unfold Settlement.posts
  rcases hj : g.playerAt j with _ | temp
  · rfl
  · simp only [Settlement.postsAt, h.frags j (by simp [hj])]

theorem SameFor.pays {e : Settlement} {g : Server} {ρ ρ' : RoundState} (h : SameFor e g ρ ρ')
    (j : Slot) : Event.pays g ρ' j (.settle e) = Event.pays g ρ j (.settle e) := by
  have hbonus : e.bonus g ρ' j = e.bonus g ρ j := by
    rw [Settlement.bonus, h.bomber, Settlement.bonus]
  have hdamage : e.damageShare g ρ' j = e.damageShare g ρ j := by
    unfold Settlement.damageShare Settlement.quotient
    by_cases hj : e.Wins g j
    · rw [h.self j hj, h.team]
    · simp [hj]
  rw [Event.pays, Event.pays, Settlement.objectiveShare_eq, Settlement.objectiveShare_eq, hbonus,
    hdamage]

/-- A kill whose killer is not there. -/
theorem sameFor_turns_kill {e : Settlement} {g : Server} {k : Kill}
    (hk : g.playerAt k.killer.slot = none) (ρ : RoundState) :
    SameFor e g ρ (Event.turns ρ (.kill k)) where
  frags := by
    intro j hj
    have hne : j ≠ k.killer.slot := by
      rintro rfl
      simp [hk] at hj
    simp [Event.turns, hne]
  self := fun _ _ => rfl
  team := rfl
  bomber := rfl

/-- A hit that is not for the winners. -/
theorem sameFor_turns_hit {e : Settlement} {g : Server} {h : Hit}
    (hh : h.amount = 0 ∨ (¬ e.Wins g h.attacker.slot ∧ h.attacker.team ≠ e.winner))
    (ρ : RoundState) : SameFor e g ρ (Event.turns ρ (.hit h)) where
  frags := fun _ _ => rfl
  self := by
    intro j hj
    rcases hh with hzero | ⟨hwins, -⟩
    · simp [Event.turns, hzero]
    · have hne : j ≠ h.attacker.slot := by
        rintro rfl
        exact hwins hj
      simp [Event.turns, hne]
  team := by
    rcases hh with hzero | ⟨-, hteam⟩
    · simp [Event.turns, hzero]
    · simp [Event.turns, Ne.symm hteam]
  bomber := rfl

/-! ## The settlement -/

section

variable {hooks : HookRun} {p : List Call} {hit kill settle : Call}

/-- The hit and the kill leave the settlement what it looks at. -/
theorem SettledAnyway.sameFor (h : EndsInKill hooks p hit kill settle)
    (hany : SettledAnyway hit kill settle) {e : Settlement}
    (he : settle.event? = some (.settle e)) (ρ : RoundState) :
    SameFor e settle.server ρ (kill.turns (hit.turns ρ)) := by
  have hhit : SameFor e settle.server ρ (hit.turns ρ) := by
    unfold Call.turns
    rcases hevent : hit.event? with _ | event
    · exact .refl _ _ _
    · obtain ⟨h, -, -⟩ := h
      obtain ⟨hit, rfl⟩ := Call.event?_takeDamage rfl hevent
      exact sameFor_turns_hit (hany.hit e he hit hevent) ρ
  refine hhit.trans ?_
  -- the kill, from the members that the hit leaves
  unfold Call.turns
  rcases hevent : kill.event? with _ | event
  · exact .refl _ _ _
  · obtain ⟨-, h, -⟩ := h
    obtain ⟨kill, rfl⟩ := Call.event?_killed rfl hevent
    exact sameFor_turns_kill (hany.kill e he kill hevent) _

/-- What the settlement records is a settlement. -/
theorem EndsInKill.event?_settle (h : EndsInKill hooks p hit kill settle) {event : Event}
    (he : settle.event? = some event) : ∃ e, event = .settle e := by
  obtain ⟨-, -, -⟩ := h
  exact Call.event?_roundEnd rfl he

/-- What a `RoundEnd` call adds to the kill streaks. -/
theorem killStreak_sub (h : EndsInKill hooks p hit kill settle) {t u : CStats}
    (hu : settle.exec t = .ok u) (j : Slot) (n : Fin (maxClients + 1)) :
    (u.data j).killStreak n - (t.data j).killStreak n =
      settle.posts t.toRoundState j (.killStreak n) := by
  have hcell : (u.data j).killStreak n = _ := (Call.exec_ok hu).cell j (.killStreak n)
  obtain ⟨-, -, -⟩ := h
  rw [hcell]
  exact add_sub_cancel_left _ _

/-- A `RoundEnd` call adds to the shares what it pays. -/
theorem paysShares_of_exec (h : EndsInKill hooks p hit kill settle) {t u : CStats}
    (hu : settle.exec t = .ok u) : PaysShares settle t u := by
  intro j
  have hshare := (Call.exec_ok hu).share j
  obtain ⟨-, -, -⟩ := h
  exact hshare

/-- **The settlement inside a kill credits what it would have credited after it**, when neither the
kill nor the hit counts for it. -/
theorem sameCredits_of_settledAnyway (h : EndsInKill hooks p hit kill settle)
    (hany : SettledAnyway hit kill settle) {s₀ s : CStats}
    (hrun : run Call.exec hooks.calls s₀ = .ok s) :
    ∃ t u, run Call.exec p s₀ = .ok t ∧ settle.exec t = .ok u ∧
      ∀ t' u', run Call.exec (p ++ [hit, kill]) s₀ = .ok t' → settle.exec t' = .ok u' →
        SameCredits settle t u t' u' := by
  obtain ⟨q₁, q₂, q₃, hcalls⟩ := calls_of_endsInKill h
  have hprefix : p ++ [settle] <+: hooks.calls := by simp [hcalls]
  obtain ⟨u, hu⟩ := run_ok_of_prefix hprefix hrun
  obtain ⟨t, ht, hsettle⟩ := run_concat_ok_iff.mp hu
  refine ⟨t, u, ht, hsettle, fun t' u' hflat hsettle' => ?_⟩
  -- the flat run has gone through the hit and the kill before it settles
  have hround : t'.toRoundState = kill.turns (hit.turns t.toRoundState) := by
    rw [show p ++ [hit, kill] = p ++ [hit] ++ [kill] by simp] at hflat
    obtain ⟨t₁, hflat, hkill⟩ := run_concat_ok_iff.mp hflat
    obtain ⟨t₀, ht₀, hhit⟩ := run_concat_ok_iff.mp hflat
    obtain rfl : t = t₀ := Except.ok.inj (ht.symm.trans ht₀)
    rw [(Call.exec_ok hkill).round, (Call.exec_ok hhit).round]
  constructor
  · intro j n
    rw [killStreak_sub h hsettle, killStreak_sub h hsettle', hround]
    unfold Call.posts
    rcases he : settle.event? with _ | event
    · rw [Option.elim_none, Option.elim_none]
    · obtain ⟨e, rfl⟩ := h.event?_settle he
      exact ((hany.sameFor h he _).posts_killStreak j n).symm
  · exact ⟨paysShares_of_exec h hsettle, paysShares_of_exec h hsettle'⟩
  · intro j
    rw [hround]
    unfold Call.pays
    rcases he : settle.event? with _ | event
    · rw [Option.elim_none, Option.elim_none]
    · obtain ⟨e, rfl⟩ := h.event?_settle he
      exact ((hany.sameFor h he _).pays j).symm

end

/-! ## A last kill that counts -/

/-- The terrorist of the duel hits, kills and wins, each inside the one before. -/
def duelHooks : HookRun :=
  .call (.takeDamage duelHit.server (some duelCt) none (some 1))
    (.call (.killed duelKill.server (some { duelCt with isAlive := false }) 1)
      (.call (.roundEnd duelEnd.server winstatusTerrorists .terroristsWin) .done .done) .done) .done

theorem endsInKill_duel : EndsInKill duelHooks [] duelHit duelKill duelEnd :=
  .intro (.here _ _ _) (.here _ _ _) (.here _ _ _)

/-- The settlement counts neither the kill nor the damage. -/
theorem duelHooks_loses_kill : EndsInKill duelHooks [] duelHit duelKill duelEnd ∧
    ∃ t u t' u', run Call.exec [] CStats.initial = .ok t ∧ duelEnd.exec t = .ok u ∧
      run Call.exec [duelHit, duelKill] CStats.initial = .ok t' ∧ duelEnd.exec t' = .ok u' ∧
      ¬ SameCredits duelEnd t u t' u' := by
  obtain ⟨t, u, ht, hend⟩ : ∃ t u, Reaches [] t ∧ duelEnd.exec t = .ok u :=
    exists_reaches_concat rfl
  obtain ⟨t', u', ht', hend'⟩ : ∃ t' u', Reaches [duelHit, duelKill] t' ∧
      duelEnd.exec t' = .ok u' := exists_reaches_concat rfl
  refine ⟨endsInKill_duel, t, u, t', u', ht, hend, ht', hend', fun h => ?_⟩
  have hstreak := h.killStreak 1 1
  rw [killStreak_sub endsInKill_duel hend, killStreak_sub endsInKill_duel hend',
    round_of_reaches ht, round_of_reaches ht'] at hstreak
  revert hstreak
  decide

/-! ## A last kill that does not count -/

/-- The second counter-terrorist, dead. -/
def secondCt : CBasePlayer := { duelFourth with isAlive := false }

/-- The terrorist of the duel kills the second counter-terrorist. -/
def firstKill : Call := ⟨.ofPlayers [duelT, duelCt, secondCt], .killed (some secondCt) 1⟩

/-- The counter-terrorist of the duel, dead. -/
def fallenCt : CBasePlayer := { duelCt with isAlive := false }

/-- The last counter-terrorist hits itself. -/
def ownLastHit : Call := ⟨duelKill.server, .takeDamage (some fallenCt) none (some 2)⟩

/-- The last counter-terrorist kills itself. -/
def ownLastKill : Call := ⟨duelKill.server, .killed (some fallenCt) 2⟩

/-- The terrorist hits one counter-terrorist and kills the other; the one that is left then kills
itself, and the terrorists win. -/
def ownHooks : HookRun :=
  .call (.takeDamage duelHit.server (some duelCt) none (some 1)) .done
    (.call (.killed firstKill.server (some secondCt) 1) .done
      (.call (.takeDamage duelKill.server (some fallenCt) none (some 2))
        (.call (.killed duelKill.server (some fallenCt) 2)
          (.call (.roundEnd duelEnd.server winstatusTerrorists .terroristsWin) .done .done) .done)
        .done))

theorem endsInKill_own :
    EndsInKill ownHooks [duelHit, firstKill] ownLastHit ownLastKill duelEnd :=
  .intro (.next (.next (.here _ _ _))) (.here _ _ _) (.here _ _ _)

/-- The hit of the loser is recorded, and counts for nothing; its kill is not recorded. -/
theorem settledAnyway_own : SettledAnyway ownLastHit ownLastKill duelEnd where
  kill := fun e _ k hk => by cases hk
  hit := fun e he h hh => by
    cases he
    cases hh
    exact .inr (by decide)

/-- Nobody misses the loser's last hit: the winner has its kill and its damage either way. -/
theorem sameCredits_own : ownLastHit.hit?.isSome ∧
    ∃ t u, run Call.exec [duelHit, firstKill] CStats.initial = .ok t ∧ duelEnd.exec t = .ok u ∧
      ∀ t' u', run Call.exec ([duelHit, firstKill] ++ [ownLastHit, ownLastKill])
          CStats.initial = .ok t' →
        duelEnd.exec t' = .ok u' → SameCredits duelEnd t u t' u' := by
  obtain ⟨s, hs⟩ : ∃ s, Reaches ownHooks.calls s := exists_reaches (by decide +kernel)
  exact ⟨rfl, sameCredits_of_settledAnyway endsInKill_own settledAnyway_own hs⟩

end StatsX
