import StatsX.Spec.Ledger

/-!
# Damage that is really applied

The game's `TakeDamage` may refuse a hit: it then returns zero and leaves the victim's
`m_lastDamageAmount` as it is. The hook of the plugin drops the returned value, so that a refused
hit is recorded as one more hit of the amount that an earlier hit has left there.

## Main definitions

* `HookedHit`: a call of the hook, with the damage that the game applies, if it does
* `Move`: such a call, or any other call
* `CreditsApplied`: the records and the round members hold what has been applied

## Main results

* `creditsApplied_iff`: all along a run the applied damage is credited, and refused hits change
  nothing, exactly when no refused hit is by a player
-/

namespace StatsX

/-! ## Hits that may be refused -/

/-- A call of the `TakeDamage` hook with the switch on: the victim as the game's `TakeDamage` finds
it, and the damage that this applies, if it does not refuse the hit. -/
structure HookedHit where
  server : Server
  victim : Option CBasePlayer
  pevInflictor : Option ℤ
  pevAttacker : Option ℤ
  applied : Option CInt
  enabled : server.manager.isEnabled = true

namespace HookedHit

variable (h : HookedHit)

/-- The victim as `callNext` leaves it. -/
def victimAfter : Option CBasePlayer :=
  h.victim.map fun p => { p with lastDamageAmount := h.applied.getD p.lastDamageAmount }

/-- The call that the hook records. -/
def call : Call := ⟨h.server, .takeDamage h.victimAfter h.pevInflictor h.pevAttacker⟩

end HookedHit

/-- A hit through the hook, or a call of another handler. -/
inductive Move
  | hit (h : HookedHit)
  | other (c : Call) (hc : ∀ victim pevInflictor pevAttacker,
      c.handler ≠ .takeDamage victim pevInflictor pevAttacker)

namespace Move

/-- The call that is recorded. -/
def call : Move → Call
  | .hit h => h.call
  | .other c _ => c

/-- The game refuses the hit. -/
def IsRefused : Move → Prop
  | .hit h => h.applied = none
  | .other _ _ => False

/-- The hit that is recorded and applied. -/
def appliedHit? : Move → Option Hit
  | .hit h => if h.applied.isSome then h.call.hit? else none
  | .other _ _ => none

end Move

/-- The hits that are recorded and applied. -/
def appliedHits (moves : List Move) : List Hit := moves.filterMap Move.appliedHit?

/-- The moves since the record `j` was last reset. -/
def sinceReset (j : Slot) (moves : List Move) : List Move := since (·.call.resets j) moves

/-- The moves since the last start of a round. -/
def sinceStart (moves : List Move) : List Move := since (·.call.startsRound) moves

/-- The key of a hit in the totals of the victims. -/
def Hit.target (h : Hit) : Slot := h.victim.slot

/-- **The records and the round members hold what has been applied.** -/
structure CreditsApplied (moves : List Move) (s : CStats) : Prop where
  damage : ∀ j, (s.data j).damage =
    tally Hit.dealer Hit.amount (appliedHits (sinceReset j moves)) j
  damageReceive : ∀ j, (s.data j).damageReceive =
    tally Hit.target Hit.amount (appliedHits (sinceReset j moves)) j
  hits : ∀ j, (s.data j).hits =
    tally Hit.dealer (fun _ => 1) (appliedHits (sinceReset j moves)) j
  roundDamage : ∀ a v, s.roundDamage a v =
    tally Hit.pair Hit.amount (appliedHits (sinceStart moves)) (a, v)

/-! ## What the handlers record -/

/-- **An integer that only hits change** is a tally of the hits since its last reset. -/
theorem cell_eq_tally {key : Hit → Slot} {amount : Hit → CInt} {j : Slot} {x : Counter}
    (hx : x.survives = false)
    (hposts : ∀ c ρ, Call.posts c ρ j x = c.hit?.elim 0 fun h => if key h = j then amount h else 0)
    {calls : List Call} {s : CStats} (h : Reaches calls s) :
    (s.data j).cell x = tally key amount (hits (since (Call.resets · j) calls)) j := by
  have hcell := cell_of_reaches hposts h
  simp only [Call.zeroes_eq_resets hx] at hcell
  rw [hcell]
  -- a call adds the amount of its hit, or nothing
  induction since (Call.resets · j) calls using List.reverseRecOn with
  | nil => rfl
  | append_singleton l c ih =>
    rw [List.map_append, List.sum_append, ih, hits_concat, tally_append, List.map_singleton,
      List.sum_singleton]
    cases c.hit? with
    | none => rfl
    | some hit => exact congrArg _ (tally_singleton key amount hit j).symm

/-- The totals of hits and of damage change by hits only. -/
theorem posts_eq_hit {x : Counter} (hx : x = .hits ∨ x = .damage ∨ x = .damageReceive) (c : Call)
    (ρ : RoundState) (j : Slot) : c.posts ρ j x = c.hit?.elim 0 (Hit.posts · j x) := by
  unfold Call.posts Call.hit?
  rcases c.event? with _ | e
  · rfl
  cases e with
  | hit h => rfl
  | settle e =>
    simp only [Option.elim_some, Event.posts, Settlement.posts]
    cases c.server.playerAt j <;> rcases hx with rfl | rfl | rfl <;> rfl
  | _ => rcases hx with rfl | rfl | rfl <;> rfl

theorem hits_eq_tally {calls : List Call} {s : CStats} (h : Reaches calls s) (j : Slot) :
    (s.data j).hits = tally Hit.dealer (fun _ => 1) (hits (since (Call.resets · j) calls)) j := by
  refine cell_eq_tally (x := .hits) rfl (fun c ρ => ?_) h
  rw [posts_eq_hit (.inl rfl)]
  simp only [Hit.posts, Hit.dealer, eq_comm]

theorem damageReceive_eq_tally {calls : List Call} {s : CStats} (h : Reaches calls s) (j : Slot) :
    (s.data j).damageReceive =
      tally Hit.target Hit.amount (hits (since (Call.resets · j) calls)) j := by
  refine cell_eq_tally (x := .damageReceive) rfl (fun c ρ => ?_) h
  rw [posts_eq_hit (.inr (.inr rfl))]
  simp only [Hit.posts, Hit.target, eq_comm]

/-! ## Runs of moves -/

/-- A refused hit is recorded: its victim is a player and so is its attacker. -/
def Move.IsRecordedRefusal (m : Move) : Prop := m.IsRefused ∧ m.call.hit?.isSome

/-- A move that is not a refused hit by a player records what it applies. -/
theorem Move.appliedHit?_eq {m : Move} (h : ¬ m.IsRecordedRefusal) :
    m.appliedHit? = m.call.hit? := by
  cases m with
  | hit h' =>
    change (if h'.applied.isSome then h'.call.hit? else none) = h'.call.hit?
    rcases happlied : h'.applied with _ | amount
    · -- refused, and then not recorded either
      have hnone : h'.call.hit? = none :=
        Option.not_isSome_iff_eq_none.mp fun hsome => h ⟨happlied, hsome⟩
      rw [hnone, ite_self]
    · rfl
  | other c hc =>
    unfold appliedHit? Move.call Call.hit?
    rcases he : c.event? with _ | e
    · rfl
    cases e with
    | hit h =>
      obtain ⟨pevInflictor, pevAttacker, hhandler, -⟩ := Call.comesFrom_of_event? he
      exact absurd hhandler (hc _ _ _)
    | _ => rfl

theorem appliedHits_eq {moves : List Move} (h : ∀ m ∈ moves, ¬ m.IsRecordedRefusal) :
    appliedHits moves = hits (moves.map Move.call) := by
  rw [appliedHits, hits, List.filterMap_map]
  exact List.filterMap_congr fun m hm => Move.appliedHit?_eq (h m hm)

/-- Without refused hits by players, what is recorded is what is applied. -/
theorem creditsApplied_of_reaches {moves : List Move} (hmoves : ∀ m ∈ moves, ¬ m.IsRecordedRefusal)
    {s : CStats} (h : Reaches (moves.map Move.call) s) : CreditsApplied moves s := by
  have hreset : ∀ j, appliedHits (sinceReset j moves) =
      hits (since (Call.resets · j) (moves.map Move.call)) := fun j => by
    rw [since_map]
    exact appliedHits_eq fun m hm => hmoves m (since_suffix.subset hm)
  have hstart : appliedHits (sinceStart moves) = hits (thisRound (moves.map Move.call)) := by
    rw [thisRound, since_map]
    exact appliedHits_eq fun m hm => hmoves m (since_suffix.subset hm)
  constructor
  · intro j
    rw [hreset, damage_of_reaches h]
    rfl
  · intro j
    rw [hreset, damageReceive_eq_tally h]
  · intro j
    rw [hreset, hits_eq_tally h]
  · intro a v
    rw [hstart, round_of_reaches h]
    rfl

/-- A refused hit that is not recorded changes nothing. -/
theorem exec_refused {m : Move} (href : m.IsRefused) (hm : ¬ m.IsRecordedRefusal) {t t' : CStats}
    (h : m.call.exec t = .ok t') : t' = t := by
  cases m with
  | hit h' =>
    refine Call.exec_eq_self h ?_ (fun _ _ => rfl) (fun _ => rfl)
    rw [Option.eq_none_iff_forall_ne_some]
    intro e he
    obtain ⟨hit, rfl⟩ := Call.event?_takeDamage rfl he
    exact hm ⟨href, by rw [Call.hit?, he]; rfl⟩
  | other c hc => exact href.elim

/-- A refused hit that is recorded counts as one more hit. -/
theorem exec_recordedRefusal {m : Move} (hm : m.IsRecordedRefusal) {t t' : CStats}
    (h : m.call.exec t = .ok t') : t' ≠ t := by
  rintro rfl
  obtain ⟨hit, hhit⟩ := Option.isSome_iff_exists.mp hm.2
  unfold Call.hit? at hhit
  split at hhit
  case h_1 hit' he =>
    have hcell := (Call.exec_event he h).2.1 hit'.attacker.slot .hits
    rw [Event.posts, Hit.posts, if_pos rfl] at hcell
    exact absurd (left_eq_add.mp hcell) (by decide)
  case h_2 => simp at hhit

/-- **All along a run the applied damage is credited, and refused hits change nothing**, exactly
when no refused hit is by a player. -/
theorem creditsApplied_iff {moves : List Move} {s : CStats}
    (h : Reaches (moves.map Move.call) s) :
    ((∀ p t, p <+: moves → Reaches (p.map Move.call) t → CreditsApplied p t) ∧
      ∀ p m t t', p ++ [m] <+: moves → Reaches (p.map Move.call) t → m.call.exec t = .ok t' →
        m.IsRefused → t' = t) ↔
      ∀ m ∈ moves, ¬ m.IsRecordedRefusal := by
  constructor
  · rintro ⟨-, hrefused⟩ m hm href
    obtain ⟨p, q, rfl⟩ := List.append_of_mem hm
    -- the run has executed the move
    have hprefix : (p ++ [m]).map Move.call <+: (p ++ m :: q).map Move.call :=
      List.IsPrefix.map Move.call ⟨q, by simp⟩
    obtain ⟨t', ht'⟩ := run_ok_of_prefix hprefix h
    rw [List.map_append] at ht'
    obtain ⟨t, ht, hexec⟩ := run_concat_ok_iff.mp ht'
    exact exec_recordedRefusal href hexec
      (hrefused p m t t' ⟨q, by simp⟩ ht hexec href.1)
  · intro hmoves
    refine ⟨fun p t hp ht => ?_, fun p m t t' hp _ hexec href => ?_⟩
    · exact creditsApplied_of_reaches (fun m hm => hmoves m (hp.subset hm)) ht
    · exact exec_refused href (hmoves m (hp.subset (by simp))) hexec

/-! ## A refused hit after an applied one -/

/-- The terrorist of the duel hits the counter-terrorist for 30. -/
def duelApplied : Move :=
  .hit { server := duelHit.server, victim := some { duelCt with lastDamageAmount := 0 },
         pevInflictor := none, pevAttacker := some 1, applied := some 30, enabled := by decide }

/-- The terrorist hits again, and the hit is refused. -/
def duelRefused : Move :=
  .hit { server := duelHit.server, victim := some duelCt,
         pevInflictor := none, pevAttacker := some 1, applied := none, enabled := by decide }

/-- The refused hit is credited with the damage of the hit before it. -/
theorem refused_hit_credited : ∃ s, Reaches ([duelApplied, duelRefused].map Move.call) s ∧
    ¬ CreditsApplied [duelApplied, duelRefused] s := by
  obtain ⟨s, hs, hdamage⟩ : ∃ s, Reaches ([duelApplied, duelRefused].map Move.call) s ∧
      (s.data 1).damage ≠ tally Hit.dealer Hit.amount
        (appliedHits (sinceReset 1 [duelApplied, duelRefused])) 1 := exists_reaches_and (by decide)
  exact ⟨s, hs, fun h => hdamage (h.damage 1)⟩

/-- The world hits the counter-terrorist, and the hit is refused. -/
def worldRefused : Move :=
  .hit { server := duelHit.server, victim := some duelCt,
         pevInflictor := none, pevAttacker := some 0, applied := none, enabled := by decide }

/-- A refused hit that is not recorded, after one that is applied. -/
theorem creditsApplied_duel : ∃ s, Reaches ([duelApplied, worldRefused].map Move.call) s ∧
    (((∀ p t, p <+: [duelApplied, worldRefused] → Reaches (p.map Move.call) t →
        CreditsApplied p t) ∧
      ∀ p m t t', p ++ [m] <+: [duelApplied, worldRefused] → Reaches (p.map Move.call) t →
        m.call.exec t = .ok t' → m.IsRefused → t' = t) ↔
      ∀ m ∈ [duelApplied, worldRefused], ¬ m.IsRecordedRefusal) := by
  obtain ⟨s, hs⟩ : ∃ s, Reaches ([duelApplied, worldRefused].map Move.call) s := exists_reaches rfl
  exact ⟨s, hs, creditsApplied_iff hs⟩

end StatsX
