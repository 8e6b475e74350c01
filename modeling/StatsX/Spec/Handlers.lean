import StatsX.Spec.Step

/-!
# The handlers record their events

Each handler is followed statement by statement, and found to do what the event of its call
says. The handlers that reset a record record nothing and are treated on their own.

## Main definitions

* `Records g m e?`: at the server `g`, the computation `m` does what the event `e?` says

## Main results

* `records_takeDamage`, `records_killed`, `records_roundEnd`, ...: one for each handler
-/

namespace StatsX

open CStats

/-- At the server `g`, a successful run of `m` does what the event says, and nothing when there
is none. -/
def Records (g : Server) (m : StatsM Unit) (e? : Option Event) : Prop :=
  ∀ ρ, Effect m ρ (e?.elim ρ (Event.turns ρ)) (fun j x => e?.elim 0 (Event.posts g ρ j · x))
    (fun j => e?.elim 0 (Event.pays g ρ j))

variable {g : Server} {ρ : RoundState}

namespace Records

variable {m n : StatsM Unit} {e? : Option Event}

/-- Nothing is done where no event is recorded. -/
theorem nothing (h : e? = none) : Records g (Pure.pure ()) e? := by
  subst h
  exact fun _ => Effect.pure

theorem ite {c : Prop} [Decidable c] (hm : c → Records g m e?) (hn : ¬ c → Records g n e?) :
    Records g (if c then m else n) e? :=
  fun ρ => Effect.ite (hm · ρ) (hn · ρ)

/-- A handler behind the switch. -/
theorem switch {handler : Handler}
    (h : g.manager.isEnabled = true → Records g m (Call.event? ⟨g, handler⟩)) :
    Records g (if g.manager.isEnabled then m else Pure.pure ()) (Call.event? ⟨g, handler⟩) :=
  ite h fun hg => nothing (by simp [Call.event?, hg])

end Records

/-! ## Hits -/

theorem isItem_iff {w w' : Fin (maxWeapons + 1)} {i : ℤ} (hi : i ≠ 0) (hw : (w.val : ℤ) = i) :
    IsItem w' i ↔ w' = w := by
  subst hw
  simp only [IsItem, hi, ne_eq, not_false_eq_true, true_and, Int.natCast_inj, Fin.val_inj]

theorem effect_takeDamageWith (a : Slot) (i : ℤ) (d : CInt) :
    Effect (takeDamageWith a i d) ρ ρ
      (fun j x => match x with
        | .weaponStats w .hit => if j = a ∧ IsItem w i then 1 else 0
        | .weaponStats w .damage => if j = a ∧ IsItem w i then d else 0
        | _ => 0) 0 := by
  refine Effect.ite (fun hi => ?_) (fun hi => ?_)
  · refine Effect.index fun w hw => Effect.seq (Effect.bump _ _ _) ?_
    refine (Effect.bump _ _ _).congr (fun j x => ?_) (by simp)
    cases x with
    | weaponStats w' g => cases g <;> simp [entry, isItem_iff hi hw]
    | _ => simp [entry]
  · refine Effect.done (fun j x => ?_) (by simp)
    split <;> simp_all [IsItem]

theorem records_takeDamage (player : Option CBasePlayer) (pevInflictor pevAttacker : Option ℤ) :
    Records g (takeDamage g player pevInflictor pevAttacker)
      (Call.event? ⟨g, .takeDamage player pevInflictor pevAttacker⟩) := by
  apply Records.switch
  intro hg
  rcases player with _ | player
  · exact Records.nothing (by simp [Call.event?, hg])
  rcases pevAttacker with _ | pevAttacker
  · exact Records.nothing (by simp [Call.event?])
  rcases ha : g.playerByIndexSafe pevAttacker with _ | attacker
  · simp only [ha]
    exact Records.nothing (by simp [Call.event?, ha])
  intro ρ
  simp only [Call.event?, hg, ha, if_true, Option.map_some, Option.elim_some]
  -- the statements in their order, each taken off what the hit is to book
  refine Effect.entindex <| Effect.seq (Effect.bump _ _ _) <| Effect.seq (Effect.bump _ _ _) <|
    Effect.entindex <| Effect.seq (Effect.bump _ _ _) <| Effect.index fun group hgroup =>
    Effect.seq (Effect.bump _ _ _) <| Effect.seq (Effect.bump _ _ _) <|
    Effect.seq (Effect.addRoundDamage _ _ _) <| Effect.seq (Effect.addRoundDamageSelf _ _) <|
    Effect.team <| Effect.seq (Effect.addRoundDamageTeam _ _) <|
    (effect_takeDamageWith _ _ _).congr (fun j x => ?_) fun _ => rfl
  -- what is left is for the weapon
  cases x with
  | weaponStats w k => cases k <;> simp [Event.posts, Hit.posts, entry]
  | hitBox i => simp [Event.posts, Hit.posts, entry, ← hgroup, Fin.val_inj]
  | hitBoxDamage i => simp [Event.posts, Hit.posts, entry, ← hgroup, Fin.val_inj]
  | _ => simp [Event.posts, Hit.posts, entry]

/-! ## Kills -/

theorem effect_killedWith (player killer : CBasePlayer) (i : ℤ) :
    Effect (killedWith player killer player.slot killer.slot i) ρ ρ
      (fun j x => match x with
        | .weaponStats w .kill => if j = killer.slot ∧ IsItem w i then 1 else 0
        | .weaponStats w .death => if j = player.slot ∧ IsItem w i then 1 else 0
        | .weaponStats w .headshot =>
          if j = killer.slot ∧ IsItem w i ∧ player.headshotKilled then 1 else 0
        | .hackStats .onehit =>
          if j = killer.slot ∧ i ≠ 0 ∧ i ≠ weaponAwp ∧ 100 ≤ player.lastClientHealth ∧
            100 ≤ player.lastDamageAmount.toInt then 1 else 0
        | .hackStats .noscop =>
          if j = killer.slot ∧ i ≠ 0 ∧ (i = weaponAwp ∨ i = weaponScout ∨ i = weaponG3sg1 ∨
            i = weaponSg550) ∧ killer.clientFOV = defaultFov then 1 else 0
        | .hackStats .vision =>
          if j = killer.slot ∧ i ≠ 0 ∧ i ≠ weaponHegrenade ∧ killer.sBarTargetType = 0 ∧
            killer.iuser1 = 0 then 1 else 0
        | _ => 0) 0 := by
  refine Effect.ite (fun hi => ?_) (fun hi => ?_)
  · refine Effect.index fun w hw => Effect.seq (Effect.bump _ _ _) <|
      Effect.seq (Effect.bump _ _ _) <| Effect.seq (Effect.bumpIf _ _ _) <|
      Effect.seq (Effect.bumpIf _ _ _) <| Effect.seq (Effect.bumpIf _ _ _) <|
      (Effect.bumpIf _ _ _).congr (fun j x => ?_) fun _ => rfl
    cases x with
    | weaponStats w' k => cases k <;> simp [entry, isItem_iff hi hw, ite_and]
    | hackStats k => cases k <;> simp [entry, hi, ite_and]
    | _ => simp [entry]
  · refine Effect.done (fun j x => ?_) fun _ => rfl
    split <;> simp_all [IsItem]

theorem effect_killedTurn (e : Kill) (i : ℤ) :
    Effect (killedTurn g e.killer e.victim.slot (fun _ => 0) i) ρ ρ
      (fun j x => if (j.val : ℤ) = i then
        (match x with
          | .assists => if e.Assists g ρ j then 1 else 0
          | _ => 0) else 0)
      (fun j => if (j.val : ℤ) = i then 0 else 0) := by
  unfold killedTurn
  rcases hi : g.playerByIndexSafe i with _ | temp
  · -- no player there, so no assist for this index
    refine Effect.done (fun j x => ?_) (by simp)
    by_cases hj : (j.val : ℤ) = i
    · have hnone : g.playerAt j = none := by rw [Server.playerAt, hj, hi]
      cases x <;> simp [hj, Kill.Assists, hnone]
    · simp [hj]
  · have htemp : g.playerAt temp.slot = some temp := Server.playerAt_slot hi
    simp only [Server.val_eq_iff hi]
    refine Effect.ite (fun ht => ?_) (fun ht => ?_)
    · -- the counts that `Killed` gets back from `CountAlive` are zero: the clutch is never set
      refine Effect.entindex <| Effect.get fun s hs => Effect.seq (Effect.bumpIf _ _ _) <|
        Effect.ite (fun h => absurd h.2 (by decide)) fun _ => Effect.done (fun j x => ?_) (by simp)
      subst hs
      by_cases hj : j = temp.slot
      · subst hj
        cases x <;> simp [entry, Kill.Assists, htemp, ht, CBasePlayer.slot_eq_iff]
      · simp [entry, hj]
    · refine Effect.done (fun j x => ?_) (by simp)
      by_cases hj : j = temp.slot
      · subst hj
        cases x <;> simp [Kill.Assists, htemp, ht]
      · simp [hj]

theorem records_killed (player : Option CBasePlayer) (pevAttacker : ℤ) :
    Records g (killed g player pevAttacker) (Call.event? ⟨g, .killed player pevAttacker⟩) := by
  apply Records.switch
  intro hg
  rcases player with _ | player
  · exact Records.nothing (by simp [Call.event?, hg])
  refine Records.ite (fun hb => ?_) (fun hb => Records.nothing ?_)
  · rcases hk : g.playerByIndexSafe pevAttacker with _ | killer
    · exact Records.nothing (by simp [Call.event?, hg, hk])
    refine Records.ite (fun hp ρ => ?_) (fun hp => Records.nothing ?_)
    · simp only [Call.event?, hg, hk, hb, hp, if_true, Option.bind_some, Option.elim_some,
        and_self, true_and, ne_eq, not_false_eq_true]
      refine Effect.entindex <| Effect.entindex <| Effect.seq (Effect.bump _ _ _) <|
        Effect.seq (Effect.bump _ _ _) <| Effect.seq (Effect.addRoundFrags _) <|
        Effect.seq (Effect.bumpIf _ _ _) <| Effect.seq (effect_killedWith _ _ _) <|
        (Effect.forM (effect_killedTurn ⟨player, killer⟩) g.nodup_clients).congr
          (fun j x => ?_) (by simp [Event.pays])
      -- what is left for the loop are the assists
      cases x with
      | weaponStats w k => cases k <;> simp [Event.posts, Kill.posts, entry]
      | hackStats k => cases k <;> simp [Event.posts, Kill.posts, entry]
      | assists =>
        -- the kill has been added to the frags by then, and assists do not look at them
        have hcongr : ∀ frags, Kill.Assists ⟨player, killer⟩ g { ρ with roundFrags := frags } j ↔
            Kill.Assists ⟨player, killer⟩ g ρ j := fun _ => Iff.rfl
        by_cases ha : Kill.Assists ⟨player, killer⟩ g ρ j
        · have hj : (j.val : ℤ) ∈ g.clients := by
            obtain ⟨⟨temp, htemp, -⟩, -⟩ := ha
            exact Server.mem_clients_of_playerByIndexSafe htemp
          simp [Event.posts, Kill.posts, entry, hcongr, ha, hj]
        · simp [Event.posts, Kill.posts, entry, hcongr, ha]
      | headshot => simp [Event.posts, Kill.posts, entry, ite_and]
      | _ => simp [Event.posts, Kill.posts, entry]
    · simp [Call.event?, hg, hk, hb, hp]
  · rcases hk : g.playerByIndexSafe pevAttacker with _ | killer <;> simp_all [Call.event?]

/-! ## Shots, payments and the bomb -/

theorem records_setAnimation (player : Option CBasePlayer) (playerAnim : PlayerAnim) :
    Records g (setAnimation g player playerAnim)
      (Call.event? ⟨g, .setAnimation player playerAnim⟩) := by
  apply Records.switch
  intro hg
  rcases player with _ | player
  · exact Records.nothing (by simp [Call.event?, hg])
  refine Records.ite (fun ha => ?_) (fun ha => Records.nothing (by simp [Call.event?, hg, ha]))
  refine Records.ite (fun hi ρ => ?_) (fun hi => Records.nothing ?_)
  · simp only [Call.event?, hg, ha, hi, if_true, Option.elim_some, ne_eq, not_false_eq_true,
      and_self]
    refine Effect.entindex <| Effect.seq (Effect.bump _ _ _) <| Effect.index fun w hw =>
      (Effect.bump _ _ _).congr (fun j x => ?_) fun _ => rfl
    cases x with
    | weaponStats w' k => cases k <;> simp [Event.posts, entry, isItem_iff hi hw]
    | _ => simp [Event.posts, entry]
  · simp [Call.event?, hg, ha, not_not.mp hi]

theorem records_addAccount (player : Option CBasePlayer) (amount : CInt) (type : ℤ) :
    Records g (addAccount g player amount type)
      (Call.event? ⟨g, .addAccount player amount type⟩) := by
  apply Records.switch
  intro hg
  rcases player with _ | player
  · exact Records.nothing (by simp [Call.event?, hg])
  refine Records.ite (fun ht ρ => ?_) (fun ht => Records.nothing (by simp [Call.event?, hg, ht]))
  simp only [Call.event?, hg, ht, if_true, Option.elim_some, and_self]
  refine Effect.entindex <| Effect.index fun t ht' =>
    (Effect.bump _ _ _).congr (fun j x => ?_) fun _ => rfl
  cases x <;> simp [Event.posts, entry, ← ht', Fin.val_inj]

/-- The entry of `BombStats` of a step of the bomb's life. -/
def Event.bombStep? : Event → Option (CBasePlayer × BombGroup)
  | .planting player => some (player, .planting)
  | .planted player => some (player, .planted)
  | .defusing player => some (player, .defusing)
  | .defused player => some (player, .defused)
  | _ => none

/-- A step of the bomb's life adds one to its entry. -/
theorem posts_bombStep {event : Event} {player : CBasePlayer} {k : BombGroup}
    (h : event.bombStep? = some (player, k)) (j : Slot) (x : Counter) :
    event.posts g ρ j x = entry player.slot (.bombStats k) 1 j x := by
  cases event with
  | planting _ | planted _ | defusing _ | defused _ =>
    obtain ⟨rfl, rfl⟩ := Prod.mk.inj (Option.some.inj h)
    cases x with
    | bombStats k => cases k <;> simp [Event.posts, entry]
    | _ => simp [Event.posts, entry]
  | _ => simp [Event.bombStep?] at h

theorem records_plantBomb (pevOwner : ℤ) (planted : Bool) :
    Records g (plantBomb g pevOwner planted) (Call.event? ⟨g, .plantBomb pevOwner planted⟩) := by
  apply Records.switch
  intro hg
  rcases hp : g.playerByIndexSafe pevOwner with _ | player
  · exact Records.nothing (by simp [Call.event?, hg, hp])
  intro ρ
  refine Effect.entindex <| Effect.ite (fun h => ?_) (fun h => ?_)
  · simp only [Call.event?, hg, hp, h, if_true, Option.map_some, Option.elim_some]
    refine Effect.seq (Effect.modify (by rintro s rfl; rfl) fun _ => rfl) <|
      (Effect.bump _ _ _).congr (fun j x => ?_) fun _ => rfl
    exact (posts_bombStep rfl j x).symm.trans (sub_zero _).symm
  · simp only [Call.event?, hg, hp, h, if_true, if_false, Option.map_some, Option.elim_some,
      Bool.false_eq_true]
    refine Effect.seq (Effect.modify (by rintro s rfl; rfl) fun _ => rfl) <|
      (Effect.bump _ _ _).congr (fun j x => ?_) fun _ => rfl
    exact (posts_bombStep rfl j x).symm.trans (sub_zero _).symm

theorem records_defuseBombStart (player : Option CBasePlayer) :
    Records g (defuseBombStart g player) (Call.event? ⟨g, .defuseBombStart player⟩) := by
  apply Records.switch
  intro hg
  rcases player with _ | player
  · exact Records.nothing (by simp [Call.event?, hg])
  intro ρ
  simp only [Call.event?, hg, if_true, Option.elim_some]
  refine Effect.entindex <| (Effect.bump _ _ _).congr (fun j x => ?_) fun _ => rfl
  exact (posts_bombStep rfl j x).symm

theorem records_defuseBombEnd (player : Option CBasePlayer) (defused : Bool) :
    Records g (defuseBombEnd g player defused)
      (Call.event? ⟨g, .defuseBombEnd player defused⟩) := by
  apply Records.switch
  intro hg
  rcases player with _ | player
  · exact Records.nothing (by simp [Call.event?, hg])
  refine Records.ite (fun h ρ => ?_) (fun h => Records.nothing (by simp [Call.event?, hg, h]))
  simp only [Call.event?, hg, h, if_true, Option.elim_some]
  refine Effect.entindex <| Effect.seq (Effect.bump _ _ _) <|
    Effect.congr (P := 0) (Q := 0) ?_ (fun j x => ?_) fun _ => rfl
  · exact Effect.modify (by rintro s rfl; rfl) fun _ => rfl
  · exact (sub_eq_zero.mpr (posts_bombStep rfl j x)).symm

theorem records_explodeBomb : Records g (explodeBomb g) (Call.event? ⟨g, .explodeBomb⟩) := by
  apply Records.switch
  intro hg ρ
  simp only [Call.event?, hg, if_true, Option.elim_some]
  apply Effect.get
  intro s hs
  subst hs
  -- without a player behind the index nothing is added
  have hnone : g.playerByIndexSafe s.roundBombPlanter = none →
      Effect (Pure.pure ()) s.toRoundState (Event.turns s.toRoundState .explosion)
        (fun j x => Event.posts g s.toRoundState j .explosion x)
        (fun j => Event.pays g s.toRoundState j .explosion) := by
    intro hn
    refine Effect.done (fun j x => ?_) fun _ => rfl
    have hj := Server.not_val_eq_and_isSome hn j
    cases x with
    | bombStats k => cases k <;> simp [Event.posts, hj]
    | _ => rfl
  refine Effect.ite (fun h => ?_) (fun h => ?_)
  · rcases hp : g.playerByIndexSafe s.roundBombPlanter with _ | player
    · exact hnone hp
    refine Effect.entindex <| (Effect.bump _ _ _).congr (fun j x => ?_) fun _ => rfl
    have hj := Server.val_eq_and_isSome_iff hp (j := j)
    cases x with
    | bombStats k => cases k <;> simp [Event.posts, entry, hj]
    | _ => simp [Event.posts, entry]
  · -- the source tests the index against `-1`, which is no player's
    apply hnone
    rw [not_not.mp h]
    exact g.playerByIndexSafe_neg_one

/-! ## The ends of a round -/

theorem records_roundFreezeEnd :
    Records g (roundFreezeEnd g) (Call.event? ⟨g, .roundFreezeEnd⟩) := by
  apply Records.switch
  intro hg ρ
  simp only [Call.event?, hg, if_true, Option.elim_some]
  exact Effect.modify (fun _ _ => rfl) fun _ => rfl

theorem effect_payBomber (bomber : ℤ) (q : ℚ) :
    Effect (payBomber g bomber q) ρ ρ 0 (bomberShare g bomber q) := by
  have hnone : g.playerByIndexSafe bomber = none →
      Effect (Pure.pure ()) ρ ρ 0 (bomberShare g bomber q) := by
    intro hn
    exact Effect.done (fun _ _ => rfl) fun j => if_neg (Server.not_val_eq_and_isSome hn j)
  refine Effect.ite (fun h => ?_) (fun h => ?_)
  · rcases hp : g.playerByIndexSafe bomber with _ | player
    · exact hnone hp
    refine Effect.entindex <| (Effect.payShare _ _).congr (fun _ _ => rfl) fun j => ?_
    simp only [bomberShare, award, Server.val_eq_and_isSome_iff hp]
  · apply hnone
    rw [not_not.mp h]
    exact g.playerByIndexSafe_neg_one

theorem effect_payObjective (e : Settlement) :
    Effect (payObjective g e.event) ρ ρ 0 (e.objectiveShare g ρ) := by
  apply Effect.get
  intro s hs
  subst hs
  refine Effect.ite (fun h => ?_) (fun h => Effect.ite (fun h' => ?_) (fun h' => ?_))
  · refine (effect_payBomber _ _).congr (fun _ _ => rfl) fun j => ?_
    simp [Settlement.objectiveShare, h]
  · refine (effect_payBomber _ _).congr (fun _ _ => rfl) fun j => ?_
    simp [Settlement.objectiveShare, h']
  · exact Effect.done (fun _ _ => rfl) fun j => by simp [Settlement.objectiveShare, h, h']

/-- One for the entry of a table `x` of the record `k` that a positive counter `n` names. -/
def counted (k : Slot) (n : CInt) (x : Fin (maxClients + 1) → Counter) : Slot → Counter → CInt :=
  fun j y => if j = k ∧ 0 < n.toInt ∧ ∃ i, (i.val : ℤ) = n.toInt ∧ y = x i then 1 else 0

theorem effect_payCount (k : Slot) (n : CInt) (x : Fin (maxClients + 1) → Counter) :
    Effect (do if 0 < n.toInt then bump k (x (← index (maxClients + 1) n.toInt)) 1) ρ ρ
      (counted k n x) 0 := by
  refine Effect.ite (fun h => ?_) (fun h => Effect.done (fun j y => ?_) fun _ => rfl)
  · refine Effect.index fun i hi => (Effect.bump _ _ _).congr (fun j y => ?_) fun _ => rfl
    have hentry : (∃ i', (i'.val : ℤ) = n.toInt ∧ y = x i') ↔ y = x i := by
      constructor
      · rintro ⟨i', hi', rfl⟩
        exact congrArg x (Fin.ext (by omega))
      · rintro rfl
        exact ⟨i, hi, rfl⟩
    simp only [entry, counted, h, hentry, true_and]
  · simp [counted, h]

theorem effect_payKillStreak (k : Slot) :
    Effect (payKillStreak k) ρ ρ (counted k (ρ.roundFrags k) .killStreak) 0 := by
  apply Effect.get
  intro s hs
  subst hs
  exact effect_payCount k _ .killStreak

theorem effect_payVersus (k : Slot) :
    Effect (payVersus k) ρ ρ (counted k (ρ.roundVersus k) .versus) 0 := by
  apply Effect.get
  intro s hs
  subst hs
  exact effect_payCount k _ .versus

theorem effect_payWinShare (e : Settlement) (k : Slot) :
    Effect (payWinShare k e.winner e.event) ρ ρ 0
      (award k (if 0 < (ρ.roundDamageSelf k).toInt then
        if e.isObjective then (e.quotient ρ k).map (managerRwsMapTarget * ·) else e.quotient ρ k
      else 0)) := by
  apply Effect.get
  intro s hs
  subst hs
  refine Effect.ite (fun h => ?_) (fun h => Effect.done (fun _ _ => rfl) fun j => ?_)
  · refine Effect.ite (fun ho => ?_) (fun ho => ?_)
    · refine (Effect.payShare _ _).congr (fun _ _ => rfl) fun j => ?_
      simp [h, ho, Settlement.isObjective, Settlement.quotient]
    · refine (Effect.payShare _ _).congr (fun _ _ => rfl) fun j => ?_
      simp_all [Settlement.isObjective, Settlement.quotient]
  · simp [award, h]

/-- What a settlement adds for the player in a slot: the round and its result, the streak of kills,
and the clutch of a winner. -/
theorem posts_settle_eq (e : Settlement) {temp : CBasePlayer}
    (htemp : g.playerAt temp.slot = some temp) (j : Slot) (x : Counter) :
    (if j = temp.slot then e.posts g ρ j x else 0) =
      entry temp.slot (.rounds .play) 1 j x +
        (counted temp.slot (ρ.roundFrags temp.slot) .killStreak j x +
          (entry temp.slot (.rounds (e.result temp.team)) 1 j x +
            if temp.team = e.winner then counted temp.slot (ρ.roundVersus temp.slot) .versus j x
            else 0)) := by
  by_cases hj : j = temp.slot
  · subst hj
    cases x with
    | rounds r => cases r <;> simp [entry, counted, Settlement.posts, htemp, Settlement.postsAt]
    | versus n => simp [entry, counted, Settlement.posts, htemp, Settlement.postsAt, ite_and]
    | _ => simp [entry, counted, Settlement.posts, htemp, Settlement.postsAt]
  · simp [entry, counted, hj]

theorem effect_roundEndTurn (e : Settlement) (i : ℤ) :
    Effect (roundEndTurn g e.winner e.event i) ρ ρ
      (fun j x => if (j.val : ℤ) = i then e.posts g ρ j x else 0)
      (fun j => if (j.val : ℤ) = i then e.damageShare g ρ j else 0) := by
  unfold roundEndTurn
  rcases hi : g.playerByIndexSafe i with _ | temp
  · have hnone : ∀ j : Slot, (j.val : ℤ) = i → g.playerAt j = none := by
      rintro j rfl
      exact hi
    refine Effect.done (fun j x => ite_eq_right_iff.mpr fun hj => ?_)
      fun j => ite_eq_right_iff.mpr fun hj => ?_
    · simp [Settlement.posts, hnone j hj]
    · simp [Settlement.damageShare, Settlement.Wins, hnone j hj]
  have htemp : g.playerAt temp.slot = some temp := Server.playerAt_slot hi
  simp only [Server.val_eq_iff hi]
  refine Effect.entindex <| Effect.seq (Effect.bump _ _ _) <|
    Effect.seq (effect_payKillStreak _) <| Effect.ite (fun hw => ?_) (fun hw => ?_)
  · -- a winner: the result, the clutch and the share
    have hresult : (if temp.team = .terrorist then .winTr else .winCt) = e.result temp.team := by
      simp [Settlement.result, hw]
    rw [hresult]
    refine Effect.seq (Effect.bump _ _ _) <| Effect.seq (effect_payVersus _) <|
      (effect_payWinShare e _).congr (fun j x => ?_) fun j => ?_
    · simp only [Pi.sub_apply, posts_settle_eq e htemp, if_pos hw]
      rw [add_sub_cancel_left, add_sub_cancel_left, add_sub_cancel_left, sub_self]
      rfl
    · by_cases hj : j = temp.slot
      · subst hj
        simp [award, Settlement.damageShare, Settlement.Wins, htemp, hw]
      · simp [award, hj]
  · -- a loser, or a player of no team: the result
    have hresult : (if temp.team = .terrorist then .loseTr else .loseCt) = e.result temp.team := by
      simp [Settlement.result, hw]
    rw [hresult]
    refine (Effect.bump _ _ _).congr (fun j x => ?_) fun j => ?_
    · simp only [Pi.sub_apply, posts_settle_eq e htemp, if_neg hw]
      rw [add_sub_cancel_left, add_sub_cancel_left, add_zero]
    · by_cases hj : j = temp.slot
      · subst hj
        simp [Settlement.damageShare, Settlement.Wins, htemp, hw]
      · simp [hj]

theorem records_roundEnd (winStatus : ℤ) (event : ScenarioEventEndRound) :
    Records g (roundEnd g winStatus event) (Call.event? ⟨g, .roundEnd winStatus event⟩) := by
  apply Records.switch
  intro hg
  refine Records.ite (fun hw ρ => ?_) (fun hw => Records.nothing (by simp [Call.event?, hg, hw]))
  simp only [Call.event?, hg, hw, if_true, Option.elim_some]
  set e : Settlement := ⟨if winStatus = winstatusTerrorists then .terrorist else .ct, event⟩
  refine ((effect_payObjective e).bind
    (Effect.forM (effect_roundEndTurn e) g.nodup_clients)).congr (fun j x => ?_) fun j => ?_
  -- a slot that the loop does not visit has no player, and a settlement adds nothing to it
  · by_cases hj : (j.val : ℤ) ∈ g.clients
    · simp [hj, Event.posts]
    · simp [hj, Event.posts, Settlement.posts, g.playerAt_eq_none hj]
  · by_cases hj : (j.val : ℤ) ∈ g.clients
    · simp [hj, Event.pays]
    · simp [hj, Event.pays, Settlement.damageShare, Settlement.Wins, g.playerAt_eq_none hj]

end StatsX
