import StatsX.Spec.Ledger
import StatsX.Spec.Share

/-!
# Succession in a slot

A player who gets into the game takes over a slot, with the record and the round members that are
kept for it. What it has not done itself should not be credited to it. `Init` resets the record but
for the table `hitBoxDamage`, and leaves the round members alone: the hits, the kills, the plant
and the defuse of the player before are still there for later calls to pay.

## Main definitions

* `CPlayer.InheritsNothing`: a record without any credit
* `Handler.isActOf k`: the call is an act of the player in slot `k`
* `Call.Collects`: the call pays something that the round members hold for a slot
* `Idle calls k`: no call is an act of a player in slot `k`

## Main results

* `neverCollects_of_joins`: nothing is collected for a successor when the players before it have not
  acted since the last start of a round
* `neverCollects_of_startsRound`: nor when a round starts first
* `inherits_nothing`: a successor inherits nothing when the slot was clean and no later call
  collects for it
-/

namespace StatsX

/-! ## Credits -/

/-- The integers of a record that are credits of its player. -/
def Counter.isCredit : Counter → Bool
  | .frags => true
  | .assists => true
  | .headshot => true
  | .hits => true
  | .damage => true
  | .hitBox _ => true
  | .hitBoxDamage _ => true
  | .killStreak _ => true
  | .bombStats .planted => true
  | .bombStats .exploded => true
  | .bombStats .defused => true
  | _ => false

/-- The record has no credit. -/
structure CPlayer.InheritsNothing (r : CPlayer) : Prop where
  credit : ∀ x : Counter, x.isCredit = true → r.cell x = 0
  share : r.roundWinShare = 0

/-- The handler is called for an act of the player in slot `k`: a hit or a kill by it, a plant or
the end of a defuse. -/
def Handler.isActOf (k : Slot) : Handler → Bool
  | .takeDamage _ _ (some pevAttacker) => pevAttacker = k.val
  | .killed _ pevAttacker => pevAttacker = k.val
  | .plantBomb pevOwner _ => pevOwner = k.val
  | .defuseBombEnd (some player) _ => player.slot = k
  | _ => false

/-- The player whose act the event is. -/
def Event.actor? : Event → Option CBasePlayer
  | .hit h => some h.attacker
  | .kill e => some e.killer
  | .planting player => some player
  | .planted player => some player
  | .defused player => some player
  | _ => none

/-- A call that is no act of the player in a slot records none. -/
theorem Call.ne_actor {c : Call} {k : Slot} (hact : c.handler.isActOf k = false) {e : Event}
    (he : c.event? = some e) {p : CBasePlayer} (hp : e.actor? = some p) : k ≠ p.slot := by
  rintro rfl
  have hfrom := comesFrom_of_event? he
  cases e with
  | hit h =>
    obtain ⟨_, _, hhandler, hattacker⟩ := hfrom
    obtain rfl := Option.some.inj hp
    simp [hhandler, Handler.isActOf, Server.slot_of_playerByIndexSafe hattacker] at hact
  | kill e =>
    obtain ⟨_, hhandler, hkiller⟩ := hfrom
    obtain rfl := Option.some.inj hp
    simp [hhandler, Handler.isActOf, Server.slot_of_playerByIndexSafe hkiller] at hact
  | planting player | planted player =>
    obtain ⟨_, hhandler, howner⟩ := hfrom
    obtain rfl := Option.some.inj hp
    simp [hhandler, Handler.isActOf, Server.slot_of_playerByIndexSafe howner] at hact
  | defused player =>
    have hhandler : c.handler = .defuseBombEnd (some player) true := hfrom
    obtain rfl := Option.some.inj hp
    simp [hhandler, Handler.isActOf] at hact
  | _ => cases hp

/-- With the round members `ρ`, the event pays something that they hold for slot `k`: an assist, an
explosion, or a part of the settlement. -/
def Event.Collects (g : Server) (ρ : RoundState) (k : Slot) : Event → Prop
  | .kill e => e.Assists g ρ k
  | .explosion => (k.val : ℤ) = ρ.roundBombPlanter ∧ (g.playerAt k).isSome
  | .settle e => (g.playerAt k).isSome ∧
      (0 < (ρ.roundFrags k).toInt ∨ e.Wins g k ∧ 0 < (ρ.roundDamageSelf k).toInt ∨
        (k.val : ℤ) = e.bomber ρ)
  | _ => False

/-- The call collects for slot `k` what the round members `ρ` hold for it. -/
def Call.Collects (c : Call) (ρ : RoundState) (k : Slot) : Prop :=
  ∃ e ∈ c.event?, e.Collects c.server ρ k

/-- What a settlement adds to the credits of a slot for which it collects nothing. -/
theorem Settlement.posts_credit {e : Settlement} {g : Server} {ρ : RoundState} {k : Slot}
    (h : ¬ ((g.playerAt k).isSome ∧ 0 < (ρ.roundFrags k).toInt)) {x : Counter}
    (hx : x.isCredit = true) : e.posts g ρ k x = 0 := by
  unfold posts
  rcases htemp : g.playerAt k with _ | temp
  · rfl
  rw [htemp, Option.isSome_some, eq_self, true_and] at h
  cases x with
  | killStreak n => simp [postsAt, h]
  | _ => simp_all [postsAt, Counter.isCredit]

/-- **What a call adds to the credits of a slot** that it is no act of and collects nothing for. -/
theorem Call.posts_credit {c : Call} {ρ : RoundState} {k : Slot}
    (hact : c.handler.isActOf k = false) (hcollects : ¬ c.Collects ρ k) {x : Counter}
    (hx : x.isCredit = true) : c.posts ρ k x = 0 := by
  unfold posts
  rcases he : c.event? with _ | e
  · rfl
  have hevent : ¬ e.Collects c.server ρ k := fun h => hcollects ⟨e, he, h⟩
  rw [Option.elim_some]
  -- credits of an act go to the player whose act it is; the others are what the call collects
  cases e with
  | hit h =>
    have hk : k ≠ h.attacker.slot := ne_actor hact he rfl
    cases x <;> simp_all [Event.posts, Hit.posts, Counter.isCredit]
  | kill e =>
    have hk : k ≠ e.killer.slot := ne_actor hact he rfl
    cases x <;> simp_all [Event.posts, Kill.posts, Counter.isCredit, Event.Collects]
  | planted player | defused player =>
    have hk : k ≠ player.slot := ne_actor hact he rfl
    exact (posts_bombStep rfl k x).trans (if_neg fun h => hk h.1)
  | explosion =>
    cases x with
    | bombStats b => cases b <;> simp_all [Event.posts, Event.Collects]
    | _ => rfl
  | settle e =>
    exact Settlement.posts_credit (fun h => hevent ⟨h.1, Or.inl h.2⟩) hx
  | shot player => cases x <;> simp_all [Event.posts, Counter.isCredit]
  | payment player type amount => cases x <;> simp_all [Event.posts, Counter.isCredit]
  | planting player | defusing player =>
    refine (posts_bombStep rfl k x).trans (if_neg ?_)
    rintro ⟨-, rfl⟩
    exact Bool.noConfusion hx
  | start => rfl

/-- A call that collects nothing for a slot pays nothing to it. -/
theorem Call.pays_eq_zero {c : Call} {ρ : RoundState} {k : Slot} (h : ¬ c.Collects ρ k) :
    c.pays ρ k = 0 := by
  unfold pays
  rcases he : c.event? with _ | e
  · rfl
  cases e with
  | settle e =>
    have hevent : ¬ Event.Collects c.server ρ k (.settle e) := fun hk => h ⟨_, he, hk⟩
    have hbonus : e.bonus c.server ρ k = 0 :=
      if_neg fun hk => hevent ⟨hk.2, Or.inr (Or.inr hk.1)⟩
    have hdamage : e.damageShare c.server ρ k = 0 := by
      refine if_neg fun hk => hevent ⟨?_, Or.inr (Or.inl hk)⟩
      obtain ⟨⟨temp, htemp, -⟩, -⟩ := hk
      exact Option.isSome_iff_exists.mpr ⟨temp, htemp⟩
    rw [Option.elim_some, Event.pays, Settlement.objectiveShare_eq, hbonus, hdamage, add_zero]
    rfl
  | _ => rfl

/-! ## Taking over a slot -/

/-- A player gets into the game in slot `k`. -/
def Call.joins (c : Call) (k : Slot) : Bool :=
  match c.handler with
  | .getIntoGame player => player.edict.isSome && player.slot = k
  | _ => false

/-- A slot is clean when its players have dealt no damage to any hit group since the last change of
the map. -/
def CleanSlot (calls : List Call) (k : Slot) : Prop :=
  ∀ i : Fin hitGroups,
    tally Hit.part Hit.amount (hits (since Call.isMapChange calls)) (k, (i.val : ℤ)) = 0

/-- After the calls `before`, none of the calls `after` collects for the slot `k`. -/
def NeverCollects (before after : List Call) (k : Slot) : Prop :=
  ∀ p c, p ++ [c] <+: after → ¬ c.Collects (.ofCalls (thisRound (before ++ p))) k

/-- Whoever gets into the game in a clean slot starts without credit. -/
theorem inheritsNothing_of_joins {calls : List Call} {s s' : CStats} (h : Reaches calls s)
    {c : Call} {k : Slot} (hjoin : c.joins k = true) (hclean : CleanSlot calls k)
    (hc : c.exec s = .ok s') : (s'.data k).InheritsNothing := by
  have hreset : c.resets k = true := by
    unfold Call.joins at hjoin
    split at hjoin
    · simp_all [Call.resets]
    · simp at hjoin
  have hevent := Call.event?_eq_none_of_resets hreset
  have hout := Call.exec_ok hc
  constructor
  · intro x hx
    rw [hout.cell, Call.posts, hevent, Option.elim_none, add_zero]
    cases hsurvives : x.survives with
    | false => rw [Call.zeroes_eq_resets hsurvives, if_pos hreset]
    | true =>
      -- the table that `Clear` forgets
      cases x with
      | hitBoxDamage i =>
        have hzero : (s.data k).cell (.hitBoxDamage i) = 0 :=
          (hitBoxDamage_of_reaches h k i).trans (hclean i)
        simp [hzero]
      | _ => simp [Counter.survives] at hsurvives
  · rw [hout.share, if_pos hreset, Call.pays, hevent, Option.elim_none, add_zero]

/-- **One step**: a record without credit keeps none when the call is no act of its player and
collects nothing for it. -/
theorem inheritsNothing_of_exec {s s' : CStats} {c : Call} {k : Slot} (hc : c.exec s = .ok s')
    (hact : c.handler.isActOf k = false) (hcollects : ¬ c.Collects s.toRoundState k)
    (h : (s.data k).InheritsNothing) : (s'.data k).InheritsNothing := by
  have hout := Call.exec_ok hc
  constructor
  · intro x hx
    rw [hout.cell, Call.posts_credit hact hcollects hx, h.credit x hx]
    simp
  · rw [hout.share, Call.pays_eq_zero hcollects, h.share]
    simp

/-- **A successor inherits nothing** when the slot was clean and no later call collects for it,
for as long as no call is an act of its own. -/
theorem inherits_nothing {before after : List Call} {join : Call} {k : Slot}
    (hjoin : join.joins k = true) (hclean : CleanSlot before k)
    (hacts : ∀ c ∈ after, c.handler.isActOf k = false)
    (hcollects : NeverCollects (before ++ [join]) after k) :
    ∀ p s, p <+: after → Reaches (before ++ [join] ++ p) s → (s.data k).InheritsNothing := by
  intro p s hp hs
  -- the join establishes the invariant, and the calls after it keep it
  obtain ⟨s₁, hs₁, hrun⟩ := run_append_ok_iff.mp hs
  obtain ⟨s₀, hs₀, hexec⟩ := run_concat_ok_iff.mp hs₁
  refine run_induction (P := fun _ t => (t.data k).InheritsNothing)
    (inheritsNothing_of_joins hs₀ hjoin hclean hexec) ?_ hrun
  intro q c t t' hq ht ih hc
  have hround : t.toRoundState = .ofCalls (thisRound (before ++ [join] ++ q)) :=
    round_of_reaches (run_append_ok_iff.mpr ⟨s₁, hs₁, ht⟩)
  refine inheritsNothing_of_exec hc (hacts c ((hq.trans hp).subset (by simp))) ?_ ih
  rw [hround]
  exact hcollects q c (hq.trans hp)

/-! ## The calls of the player before -/

/-- None of the calls is an act of a player in slot `k`. -/
def Idle (calls : List Call) (k : Slot) : Prop := ∀ c ∈ calls, c.handler.isActOf k = false

instance (calls : List Call) (k : Slot) : Decidable (Idle calls k) :=
  inferInstanceAs (Decidable (∀ c ∈ calls, _))

/-- The round members hold nothing for slot `k`. -/
structure RoundState.HoldsNothing (ρ : RoundState) (k : Slot) : Prop where
  damage : ∀ v, ρ.roundDamage k v = 0
  self : ρ.roundDamageSelf k = 0
  frags : ρ.roundFrags k = 0
  planter : (k.val : ℤ) ≠ ρ.roundBombPlanter
  defuser : (k.val : ℤ) ≠ ρ.roundBombDefuser

theorem val_ne_elim_entindex {k : Slot} {p : Option CBasePlayer}
    (h : ∀ q, p = some q → k ≠ q.slot) : (k.val : ℤ) ≠ p.elim (-1) CBasePlayer.entindex := by
  cases p with
  | none =>
    rw [Option.elim_none]
    omega
  | some q =>
    rw [Option.elim_some, ← q.slot_val]
    exact fun hval => h q rfl (Fin.ext (by exact_mod_cast hval))

/-- A round without an act of the player in a slot holds nothing for it. -/
theorem holdsNothing_ofCalls {l : List Call} {k : Slot} (hidle : Idle l k) :
    (RoundState.ofCalls l).HoldsNothing k := by
  have hhits : ∀ h ∈ hits l, h.attacker.slot ≠ k := fun h hh => by
    obtain ⟨c, hc, he⟩ := mem_hits hh
    exact (Call.ne_actor (hidle c hc) he rfl).symm
  have hkills : ∀ e ∈ kills l, e.killer.slot ≠ k := fun e hkill => by
    obtain ⟨c, hc, he⟩ := mem_kills hkill
    exact (Call.ne_actor (hidle c hc) he rfl).symm
  constructor
  · exact fun v => tally_eq_zero _ _ fun h hh hpair => hhits h hh (congrArg Prod.fst hpair)
  · exact tally_eq_zero _ _ hhits
  · exact tally_eq_zero _ _ hkills
  · refine val_ne_elim_entindex fun p hp => ?_
    obtain ⟨c, hc, he⟩ := planter_mem hp
    exact Call.ne_actor (hidle c hc) he rfl
  · refine val_ne_elim_entindex fun p hp => ?_
    obtain ⟨c, hc, he⟩ := defuser_mem hp
    exact Call.ne_actor (hidle c hc) he rfl

/-- Nothing can be collected of round members that hold nothing. -/
theorem Call.not_collects {ρ : RoundState} {k : Slot} (h : ρ.HoldsNothing k) (c : Call) :
    ¬ c.Collects ρ k := by
  rintro ⟨e, -, hcollects⟩
  cases e with
  | kill e =>
    obtain ⟨-, -, hdamage⟩ := hcollects
    rw [h.damage] at hdamage
    exact absurd hdamage (by decide)
  | explosion => exact h.planter hcollects.1
  | settle e =>
    obtain ⟨-, hfrags | ⟨-, hself⟩ | hbomber⟩ := hcollects
    · rw [h.frags] at hfrags
      exact absurd hfrags (by decide)
    · rw [h.self] at hself
      exact absurd hself (by decide)
    · unfold Settlement.bomber at hbomber
      split_ifs at hbomber
      · exact h.defuser hbomber
      · exact h.planter hbomber
  | _ => exact hcollects

variable {before after : List Call} {k : Slot}

/-- **Nothing is collected for a slot** when its players have not acted since the last start of a
round, and do not act later. -/
theorem neverCollects_of_idle (hbefore : Idle (thisRound before) k) (hafter : Idle after k) :
    NeverCollects before after k := by
  intro p c hp
  refine Call.not_collects (holdsNothing_ofCalls fun d hd => ?_) c
  rcases mem_since_append hd with hd | hd
  · exact hbefore d hd
  · exact hafter d (((List.prefix_append p [c]).trans hp).subset hd)

theorem Call.isActOf_of_joins {c : Call} (h : c.joins k = true) : c.handler.isActOf k = false := by
  unfold Call.joins at h
  split at h
  · simp_all [Handler.isActOf]
  · simp at h

/-- **The predecessor's own calls**: nothing is collected for the player who gets into the game in a
slot when the players before it have not acted since the last start of a round. -/
theorem neverCollects_of_joins {join : Call} (hjoin : join.joins k = true)
    (hbefore : Idle (thisRound before) k) (hafter : Idle after k) :
    NeverCollects (before ++ [join]) after k := by
  refine neverCollects_of_idle (fun d hd => ?_) hafter
  rcases mem_since_append hd with hd | hd
  · exact hbefore d hd
  · obtain rfl := List.mem_singleton.mp hd
    exact Call.isActOf_of_joins hjoin

/-- Nothing is collected for a slot when a round starts first, whatever its players have done. -/
theorem neverCollects_of_startsRound {b : Call} (hb : b.startsRound = true)
    (hafter : Idle after k) : NeverCollects before (b :: after) k := by
  intro p c hp
  cases p with
  | nil =>
    -- the start itself collects nothing
    obtain ⟨rfl, -⟩ := List.cons_prefix_cons.mp hp
    rintro ⟨e, he, hcollects⟩
    rw [Call.startsRound_iff.mp hb] at he
    obtain rfl := Option.some.inj he
    exact hcollects
  | cons b' p =>
    obtain ⟨rfl, hafter'⟩ := List.cons_prefix_cons.mp hp
    have hstart : Idle (thisRound (before ++ [b'])) k := by
      rw [thisRound_concat, if_pos hb]
      exact fun d hd => absurd hd List.not_mem_nil
    have hcollects := neverCollects_of_idle hstart hafter p c hafter'
    rwa [List.append_assoc] at hcollects

/-! ## A slot that is not clean -/

/-- The terrorist of the duel hits and leaves, and another gets into the game in its slot. -/
def successor : List Call :=
  [duelHit, .duel (.disconnected duelT), .duel (.getIntoGame duelT)]

/-- The successor has the damage by hit group of the player before. -/
theorem successor_inherits : ∃ s, Reaches successor s ∧ ¬ (s.data 1).InheritsNothing := by
  obtain ⟨s, hs, hne⟩ : ∃ s, Reaches successor s ∧ (s.data 1).hitBoxDamage 0 ≠ 0 :=
    exists_reaches_and (by decide +kernel)
  exact ⟨s, hs, fun h => hne (h.credit (.hitBoxDamage 0) rfl)⟩

/-! ## A slot that is clean -/

/-- The terrorist of the duel kills, plants the bomb and leaves. -/
def busyPlayer : List Call :=
  [.duel .roundFreezeEnd, duelKill, .duel (.plantBomb 1 false), .duel (.plantBomb 1 true),
    .duel (.disconnected duelT)]

/-- Another gets into the game in the slot. -/
def duelSuccessor : Call := .duel (.getIntoGame duelT)

/-- The round members hold the kill and the plant as the successor gets into the game, and are
overwritten before the terrorists win the next round. -/
theorem inherits_nothing_duel :
    (∃ t, Reaches (busyPlayer ++ [duelSuccessor]) t ∧ t.roundFrags 1 = 1 ∧ t.roundBombPlanter = 1) ∧
      ∃ s, Reaches (busyPlayer ++ [duelSuccessor] ++ [.duel .roundFreezeEnd, duelEnd]) s ∧
        (s.data 1).InheritsNothing := by
  constructor
  · exact exists_reaches_and (by decide +kernel)
  obtain ⟨s, hs⟩ : ∃ s,
      Reaches (busyPlayer ++ [duelSuccessor] ++ [.duel .roundFreezeEnd, duelEnd]) s :=
    exists_reaches (by decide +kernel)
  refine ⟨s, hs, inherits_nothing rfl (fun i => ?_) (by decide)
    (neverCollects_of_startsRound rfl (by decide)) _ s (List.prefix_refl _) hs⟩
  revert i
  decide +kernel

end StatsX
