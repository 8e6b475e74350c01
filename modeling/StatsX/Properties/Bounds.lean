import StatsX.Spec.Round
import StatsX.Spec.Safety

/-!
# Array bounds over whole runs

Every index that a handler takes from the game is in range when the game delivers values in
range. What is left are the two counters that `RoundEnd` uses as indices: the kills of a round,
which the game does not bound, and the clutch counter, which nothing sets.

## Main definitions

* `Call.InRange`: the values that the game delivers to a call are in range
* `KillsBounded`: the settled rounds count at most `MAX_CLIENTS` kills for whoever is there

## Main results

* `reaches_iff`: a run stays within its arrays exactly when no settled round counts more than
  `MAX_CLIENTS` kills for a player who is there
-/

namespace StatsX

open CStats

/-! ## What the game delivers -/

/-- The fields of a player that become indices are in range. -/
def CBasePlayer.InRange (p : CBasePlayer) : Prop :=
  (0 ≤ p.lastHitGroup ∧ p.lastHitGroup ≤ 8) ∧
    ∀ item ∈ p.activeItem, 0 ≤ item.id ∧ item.id ≤ maxWeapons

/-- The values that the game delivers to the call are in range. -/
def Call.InRange (c : Call) : Prop :=
  (∀ i, ∀ p ∈ c.server.privateData i, p.InRange) ∧ ∀ p ∈ c.handler.player?, p.InRange

theorem itemInBounds_isWeapon {p : CBasePlayer} (h : p.InRange) (allowKnife : Bool) :
    ItemInBounds (isWeapon p allowKnife) := by
  have hnone : ItemInBounds weaponNone := by decide
  unfold isWeapon
  split
  · exact hnone
  · rename_i item hitem
    have hid : ItemInBounds item.id := by
      obtain ⟨h₀, h₁⟩ := h.2 item hitem
      exact ⟨h₀, Int.lt_add_one_of_le h₁⟩
    split_ifs <;> first | exact hnone | exact hid

theorem CBasePlayer.InRange.of_playerByIndexSafe {c : Call} (h : c.InRange) {i : ℤ}
    {p : CBasePlayer} (hp : c.server.playerByIndexSafe i = some p) : p.InRange := by
  unfold Server.playerByIndexSafe at hp
  split_ifs at hp
  exact h.1 i p hp

/-! ## The counters of the round -/

/-- The settled rounds of a run count at most `MAX_CLIENTS` kills for whoever is there. -/
def KillsBounded (calls : List Call) : Prop :=
  ∀ p c, p ++ [c] <+: calls → ∀ e, c.event? = some (.settle e) →
    ∀ j, (c.server.playerAt j).isSome → StreakInBounds (BitVec.ofNat 32 (killCount (thisRound p) j))

/-- The clutch counter is an index of its table: it is zero. -/
theorem streakInBounds_zero : StreakInBounds 0 := by decide

/-- In range, only a settlement can leave the arrays. -/
theorem inBounds_iff {c : Call} (hc : c.InRange) (l : List Call) :
    (∀ e ∈ c.event?, e.InBounds c.server (.ofCalls l)) ↔
      ∀ e, c.event? = some (.settle e) → ∀ j, (c.server.playerAt j).isSome →
        StreakInBounds (BitVec.ofNat 32 (killCount l j)) := by
  constructor
  · intro h e he j hj
    obtain ⟨temp, htemp⟩ := Option.isSome_iff_exists.mp hj
    have := (h _ he j temp htemp).1
    rwa [roundFrags_ofCalls] at this
  · intro h e he
    cases e with
    | hit hit =>
      obtain ⟨_, _, hhandler, hattacker⟩ := Call.comesFrom_of_event? he
      have hvictim : hit.victim.InRange := hc.2 _ (by rw [hhandler]; rfl)
      obtain ⟨h₀, h₈⟩ := hvictim.1
      exact ⟨⟨h₀, Int.lt_add_one_of_le h₈⟩,
        itemInBounds_isWeapon (.of_playerByIndexSafe hc hattacker) true⟩
    | kill kill =>
      obtain ⟨_, -, hkiller⟩ := Call.comesFrom_of_event? he
      exact itemInBounds_isWeapon (.of_playerByIndexSafe hc hkiller) true
    | shot player =>
      obtain ⟨_, hhandler⟩ := Call.comesFrom_of_event? he
      exact itemInBounds_isWeapon (hc.2 _ (by rw [hhandler]; rfl)) false
    | settle settle =>
      -- the clutch counter is never set, so that only the kills are left to bound
      intro j temp htemp
      refine ⟨?_, fun _ => streakInBounds_zero⟩
      rw [roundFrags_ofCalls]
      exact h settle he j (Option.isSome_iff_exists.mpr ⟨temp, htemp⟩)
    | _ => trivial

/-- **Each step of a run is within its arrays** exactly when its kills are bounded. -/
theorem exec_defined_iff {c : Call} (hc : c.InRange) {p : List Call} {t : CStats}
    (ht : Reaches p t) : (∃ t', c.exec t = .ok t') ↔
      ∀ e, c.event? = some (.settle e) → ∀ j, (c.server.playerAt j).isSome →
        StreakInBounds (BitVec.ofNat 32 (killCount (thisRound p) j)) := by
  rw [c.exec_defined, round_of_reaches ht, inBounds_iff hc]

/-- **A run stays within its arrays** exactly when no round that it settles counts, as a 32-bit
integer, more than `MAX_CLIENTS` kills for a player who is there. -/
theorem reaches_iff {calls : List Call} (hrange : ∀ c ∈ calls, c.InRange) :
    (∃ s, Reaches calls s) ↔ KillsBounded calls := by
  constructor
  -- a step of a run that succeeds has succeeded, and a run all of whose steps do is one
  · rintro ⟨s, hs⟩ p c hp
    have hc : c.InRange := hrange c (hp.subset (by simp))
    obtain ⟨t', ht'⟩ := run_ok_of_prefix hp hs
    obtain ⟨t, ht, hexec⟩ := run_concat_ok_iff.mp ht'
    exact (exec_defined_iff hc ht).mp ⟨t', hexec⟩
  · intro h
    apply run_progress
    intro p c t hp ht
    exact (exec_defined_iff (hrange c (hp.subset (by simp))) ht).mpr (h p c hp)

/-! ## A round that is too long -/

instance (p : CBasePlayer) : Decidable p.InRange := inferInstanceAs (Decidable (_ ∧ _))

theorem inRange_ofPlayers {players : List CBasePlayer} {handler : Handler}
    (hplayers : ∀ p ∈ players, p.InRange) (h : ∀ p ∈ handler.player?, p.InRange) :
    Call.InRange ⟨.ofPlayers players, handler⟩ :=
  ⟨fun _ p hp => hplayers p (Server.mem_of_privateData hp), h⟩

theorem inRange_duelKill : duelKill.InRange := inRange_ofPlayers (by decide) (by decide)

theorem inRange_duelEnd : duelEnd.InRange := inRange_ofPlayers (by decide) (by decide)

/-- The same player is killed, and respawns, thirty-three times in one round. -/
def longRound : List Call := List.replicate 33 duelKill ++ [duelEnd]

theorem inRange_longRound : ∀ c ∈ longRound, c.InRange := by
  intro c hc
  rcases List.mem_append.mp hc with hc | hc
  · rw [List.eq_of_mem_replicate hc]
    exact inRange_duelKill
  · rw [List.mem_singleton.mp hc]
    exact inRange_duelEnd

theorem killCount_longRound : killCount (thisRound (List.replicate 33 duelKill)) 1 = 33 := by
  decide

/-- The thirty-third kill of the round is past the end of `KillStreak`. -/
theorem longRound_out_of_bounds :
    (∀ c ∈ longRound, c.InRange) ∧ ¬ ∃ s, Reaches longRound s := by
  refine ⟨inRange_longRound, ?_⟩
  rintro ⟨s, hs⟩
  obtain ⟨t, ht, hend⟩ := run_concat_ok_iff.mp hs
  have h := (exec_defined_iff inRange_duelEnd ht).mp ⟨s, hend⟩ _ rfl 1 rfl
  rw [killCount_longRound] at h
  exact absurd h (by decide)

/-- A round of one kill is settled within the arrays. -/
theorem reaches_iff_duel :
    (∃ s, Reaches [duelKill, duelEnd] s) ↔ KillsBounded [duelKill, duelEnd] :=
  reaches_iff fun c hc => by
    rcases List.mem_pair.mp hc with rfl | rfl
    · exact inRange_duelKill
    · exact inRange_duelEnd

end StatsX
