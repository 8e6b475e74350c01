import StatsX.Spec.Exec

/-!
# When a call stays within its arrays

A handler fails only at an index outside an array. Which indices it computes depends on its
arguments, on the server and on the round members; for each handler the exact condition under
which all of them are indices is found here, by rules in the manner of the effects.

## Main definitions

* `Defined m ρ φ`: from the round members `ρ`, the computation `m` succeeds exactly when `φ`
* `Event.InBounds`: the indices of an event are indices of their arrays

## Main results

* `Call.exec_defined`: a call succeeds exactly when the indices of its event are in bounds
-/

namespace StatsX

open CStats

/-! ## Indices -/

/-- What `isWeapon` reports is an index of the table of weapons. -/
def ItemInBounds (itemIndex : ℤ) : Prop := 0 ≤ itemIndex ∧ itemIndex < (maxWeapons + 1 : ℕ)

/-- A counter of the round is an index of the tables it is counted into, or is not counted. -/
def StreakInBounds (n : CInt) : Prop := n.toInt ≤ maxClients

instance (itemIndex : ℤ) : Decidable (ItemInBounds itemIndex) :=
  inferInstanceAs (Decidable (_ ∧ _))

instance (n : CInt) : Decidable (StreakInBounds n) := inferInstanceAs (Decidable (_ ≤ _))

/-- **The indices of an event are in bounds.** -/
def Event.InBounds (g : Server) (ρ : RoundState) : Event → Prop
  | .hit h => (0 ≤ h.victim.lastHitGroup ∧ h.victim.lastHitGroup < hitGroups) ∧
      ItemInBounds (isWeapon h.attacker true)
  | .kill e => ItemInBounds e.item
  | .shot player => ItemInBounds (isWeapon player false)
  | .settle e => ∀ j, ∀ temp ∈ g.playerAt j, StreakInBounds (ρ.roundFrags j) ∧
      (temp.team = e.winner → StreakInBounds (ρ.roundVersus j))
  | _ => True

/-! ## Rules -/

/-- From the round members `ρ`, the computation succeeds exactly when `φ` holds. -/
def Defined (m : StatsM Unit) (ρ : RoundState) (φ : Prop) : Prop :=
  ∀ s, s.toRoundState = ρ → ((∃ s', m.run s = .ok ((), s')) ↔ φ)

namespace Defined

variable {ρ ρ₁ : RoundState} {P : Slot → Counter → CInt} {Q : Slot → WithTop ℚ} {m : StatsM Unit}
  {φ ψ : Prop}

theorem congr (h : Defined m ρ φ) (hφ : φ ↔ ψ) : Defined m ρ ψ :=
  fun s hs => (h s hs).trans hφ

theorem pure : Defined (Pure.pure ()) ρ True :=
  fun s _ => ⟨fun _ => trivial, fun _ => ⟨s, rfl⟩⟩

/-- The second computation starts from the round members that the first leaves. -/
theorem bind {n : Unit → StatsM Unit} (he : Effect m ρ ρ₁ P Q) (hm : Defined m ρ φ)
    (hn : Defined (n ()) ρ₁ ψ) : Defined (m >>= n) ρ (φ ∧ ψ) := by
  intro s hs
  -- the effect of the first computation says from which round members the second one starts
  constructor
  · rintro ⟨s', h⟩
    rw [StateT.run_bind, bind_ok_iff] at h
    obtain ⟨⟨⟨⟩, t⟩, ht, h⟩ := h
    exact ⟨(hm s hs).mp ⟨t, ht⟩, (hn t (he s t hs ht).1).mp ⟨s', h⟩⟩
  · rintro ⟨hφ, hψ⟩
    obtain ⟨t, ht⟩ := (hm s hs).mpr hφ
    obtain ⟨s', h⟩ := (hn t (he s t hs ht).1).mpr hψ
    exact ⟨s', by rw [StateT.run_bind, bind_ok_iff]; exact ⟨_, ht, h⟩⟩

/-- A first computation that always succeeds. -/
theorem seq {n : Unit → StatsM Unit} (he : Effect m ρ ρ₁ P Q) (hm : Defined m ρ True)
    (hn : Defined (n ()) ρ₁ φ) : Defined (m >>= n) ρ φ :=
  (bind he hm hn).congr (iff_of_eq (true_and _))

/-- A second computation that does not look at the round members. -/
theorem andThen {n : Unit → StatsM Unit} (hm : Defined m ρ True) (hn : ∀ ρ', Defined (n ()) ρ' φ) :
    Defined (m >>= n) ρ φ := by
  intro s hs
  constructor
  · rintro ⟨s', h⟩
    rw [StateT.run_bind, bind_ok_iff] at h
    obtain ⟨⟨⟨⟩, t⟩, -, h⟩ := h
    exact (hn _ t rfl).mp ⟨s', h⟩
  · intro hφ
    obtain ⟨t, ht⟩ := (hm s hs).mpr trivial
    obtain ⟨s', h⟩ := (hn _ t rfl).mpr hφ
    exact ⟨s', by rw [StateT.run_bind, bind_ok_iff]; exact ⟨_, ht, h⟩⟩

theorem index {n : ℕ} {i : ℤ} {f : Fin n → StatsM Unit} (h : ∀ k : Fin n, Defined (f k) ρ φ) :
    Defined ((liftM (StatsX.index n i) : StatsM (Fin n)) >>= f) ρ ((0 ≤ i ∧ i < n) ∧ φ) := by
  intro s hs
  constructor
  · rintro ⟨s', hrun⟩
    rw [StateT.run_bind, bind_ok_iff] at hrun
    obtain ⟨⟨k, t⟩, hk, hrun⟩ := hrun
    rw [StateT.run_monadLift, bind_ok_iff] at hk
    obtain ⟨k', hk', hkt⟩ := hk
    obtain ⟨rfl, rfl⟩ := Prod.mk.inj (Except.ok.inj hkt)
    exact ⟨exists_index_ok_iff.mp ⟨_, hk'⟩, (h _ s hs).mp ⟨s', hrun⟩⟩
  · rintro ⟨hi, hφ⟩
    obtain ⟨k, hk⟩ := exists_index_ok_iff.mpr hi
    obtain ⟨s', hrun⟩ := (h k s hs).mpr hφ
    refine ⟨s', ?_⟩
    rw [StateT.run_bind, StateT.run_monadLift, hk]
    exact hrun

theorem entindex {p : CBasePlayer} {f : Slot → StatsM Unit} (h : Defined (f p.slot) ρ φ) :
    Defined ((liftM (StatsX.index (maxClients + 1) p.entindex) : StatsM Slot) >>= f) ρ φ := by
  rw [p.index_entindex]
  exact h

theorem team {t : TeamName} {f : TeamIndex → StatsM Unit} (h : Defined (f t.toIndex) ρ φ) :
    Defined ((liftM (StatsX.index 4 t.toInt) : StatsM TeamIndex) >>= f) ρ φ := by
  rw [TeamName.index_toInt]
  exact h

theorem get {f : CStats → StatsM Unit} (h : ∀ s, s.toRoundState = ρ → Defined (f s) ρ φ) :
    Defined (MonadState.get >>= f) ρ φ :=
  fun s hs => h s hs s hs

theorem ite {c : Prop} [Decidable c] {n : StatsM Unit} (hm : c → Defined m ρ φ)
    (hn : ¬ c → Defined n ρ φ) : Defined (if c then m else n) ρ φ := by
  split_ifs with h
  · exact hm h
  · exact hn h

/-- **A loop** whose turns leave the round members as they are. -/
theorem forM {turn : ℤ → StatsM Unit} {Φ : ℤ → Prop} {P : ℤ → Slot → Counter → CInt}
    {Q : ℤ → Slot → WithTop ℚ} (he : ∀ i, Effect (turn i) ρ ρ (P i) (Q i))
    (h : ∀ i, Defined (turn i) ρ (Φ i)) (l : List ℤ) : Defined (l.forM turn) ρ (∀ i ∈ l, Φ i) := by
  induction l with
  | nil => exact pure.congr (by simp)
  | cons i l ih => exact (bind (he i) (h i) ih).congr List.forall_mem_cons.symm

/-! ### Statements -/

theorem modify (f : CStats → CStats) : Defined (modify f) ρ True :=
  fun s _ => ⟨fun _ => trivial, fun _ => ⟨f s, rfl⟩⟩

theorem bump (k : Slot) (x : Counter) (d : CInt) : Defined (CStats.bump k x d) ρ True :=
  modify _

theorem payShare (k : Slot) (q : WithTop ℚ) : Defined (CStats.payShare k q) ρ True :=
  modify _

theorem bumpIf (c : Prop) [Decidable c] (k : Slot) (x : Counter) :
    Defined (CStats.bumpIf c k x) ρ True :=
  ite (fun _ => bump k x 1) fun _ => pure

end Defined

/-! ## Handlers -/

/-- At the server `g`, the computation succeeds exactly when the indices of the event are in
bounds. -/
def DefinedBy (g : Server) (m : StatsM Unit) (e? : Option Event) : Prop :=
  ∀ ρ, Defined m ρ (∀ e ∈ e?, e.InBounds g ρ)

variable {g : Server} {ρ : RoundState}

namespace DefinedBy

variable {m n : StatsM Unit} {e? : Option Event}

/-- Nothing is done where no event is recorded. -/
theorem nothing (h : e? = none) : DefinedBy g (Pure.pure ()) e? := by
  subst h
  exact fun _ => Defined.pure.congr (by simp)

theorem ite {c : Prop} [Decidable c] (hm : c → DefinedBy g m e?) (hn : ¬ c → DefinedBy g n e?) :
    DefinedBy g (if c then m else n) e? :=
  fun ρ => Defined.ite (hm · ρ) (hn · ρ)

/-- A handler behind the switch. -/
theorem switch {handler : Handler}
    (h : g.manager.isEnabled = true → DefinedBy g m (Call.event? ⟨g, handler⟩)) :
    DefinedBy g (if g.manager.isEnabled then m else Pure.pure ()) (Call.event? ⟨g, handler⟩) :=
  ite h fun hg => nothing (by simp [Call.event?, hg])

end DefinedBy

theorem defined_takeDamageWith (a : Slot) (i : ℤ) (d : CInt) :
    Defined (takeDamageWith a i d) ρ (ItemInBounds i) := by
  refine Defined.ite (fun hi => ?_) (fun hi => ?_)
  · refine Defined.congr (Defined.index fun w => ?_) (iff_of_eq (and_true _))
    exact Defined.andThen (Defined.bump _ _ _) fun _ => Defined.bump _ _ _
  · refine Defined.pure.congr (iff_of_true trivial ?_)
    rw [not_not.mp hi]
    decide

theorem definedBy_takeDamage (player : Option CBasePlayer) (pevInflictor pevAttacker : Option ℤ) :
    DefinedBy g (takeDamage g player pevInflictor pevAttacker)
      (Call.event? ⟨g, .takeDamage player pevInflictor pevAttacker⟩) := by
  apply DefinedBy.switch
  intro hg
  rcases player with _ | player
  · exact DefinedBy.nothing (by simp [Call.event?, hg])
  rcases pevAttacker with _ | pevAttacker
  · exact DefinedBy.nothing (by simp [Call.event?])
  rcases ha : g.playerByIndexSafe pevAttacker with _ | attacker
  · simp only [ha]
    exact DefinedBy.nothing (by simp [Call.event?, ha])
  intro ρ
  simp only [ha]
  -- only the hit group and the item are indices that nothing has checked
  refine Defined.congr (Defined.entindex <| Defined.andThen (Defined.bump _ _ _) fun _ =>
    Defined.andThen (Defined.bump _ _ _) fun _ => Defined.entindex <|
    Defined.andThen (Defined.bump _ _ _) fun _ => Defined.index fun group =>
    Defined.andThen (Defined.bump _ _ _) fun _ =>
    Defined.andThen (Defined.bump _ _ _) fun _ =>
    Defined.andThen (Defined.modify _) fun _ =>
    Defined.andThen (Defined.modify _) fun _ => Defined.team <|
    Defined.andThen (Defined.modify _) fun _ =>
    defined_takeDamageWith _ _ _) ?_
  simp [Call.event?, hg, ha, Event.InBounds]

theorem defined_killedWith (player killer : CBasePlayer) (v k : Slot) (i : ℤ) :
    Defined (killedWith player killer v k i) ρ (ItemInBounds i) := by
  refine Defined.ite (fun hi => ?_) (fun hi => ?_)
  · refine Defined.congr (Defined.index fun w => ?_) (iff_of_eq (and_true _))
    exact Defined.andThen (Defined.bump _ _ _) fun _ =>
      Defined.andThen (Defined.bump _ _ _) fun _ =>
      Defined.andThen (Defined.bumpIf _ _ _) fun _ =>
      Defined.andThen (Defined.bumpIf _ _ _) fun _ =>
      Defined.andThen (Defined.bumpIf _ _ _) fun _ => Defined.bumpIf _ _ _
  · refine Defined.pure.congr (iff_of_true trivial ?_)
    rw [not_not.mp hi]
    decide

theorem defined_killedTurn (killer : CBasePlayer) (v : Slot) (count : CArray CInt 4) (i : ℤ) :
    Defined (killedTurn g killer v count i) ρ True := by
  unfold killedTurn
  rcases g.playerByIndexSafe i with _ | temp
  · exact Defined.pure
  refine Defined.ite (fun _ => ?_) fun _ => Defined.pure
  refine Defined.entindex <| Defined.get fun s hs =>
    Defined.andThen (Defined.bumpIf _ _ _) fun _ =>
    Defined.ite (fun _ => Defined.modify _) fun _ => Defined.pure

theorem definedBy_killed (player : Option CBasePlayer) (pevAttacker : ℤ) :
    DefinedBy g (killed g player pevAttacker) (Call.event? ⟨g, .killed player pevAttacker⟩) := by
  apply DefinedBy.switch
  intro hg
  rcases player with _ | player
  · exact DefinedBy.nothing (by simp [Call.event?, hg])
  refine DefinedBy.ite (fun hb => ?_) (fun hb => DefinedBy.nothing ?_)
  · rcases hk : g.playerByIndexSafe pevAttacker with _ | killer
    · exact DefinedBy.nothing (by simp [Call.event?, hg, hk])
    refine DefinedBy.ite (fun hp ρ => ?_) (fun hp => DefinedBy.nothing ?_)
    · simp only
      -- the loop needs the effects as well, as it looks at the round members
      refine Defined.congr (Defined.entindex <| Defined.entindex <|
        Defined.andThen (Defined.bump _ _ _) fun _ =>
        Defined.andThen (Defined.bump _ _ _) fun _ =>
        Defined.andThen (Defined.modify _) fun _ =>
        Defined.andThen (Defined.bumpIf _ _ _) fun _ =>
        Defined.bind (effect_killedWith _ _ _) (defined_killedWith _ _ _ _ _) <|
        Defined.forM (effect_killedTurn ⟨player, killer⟩) (defined_killedTurn killer _ _)
          g.clients) ?_
      simp [Call.event?, hg, hk, hb, hp, Event.InBounds]
    · simp [Call.event?, hg, hk, hb, hp]
  · rcases hk : g.playerByIndexSafe pevAttacker with _ | killer <;> simp_all [Call.event?]

theorem definedBy_setAnimation (player : Option CBasePlayer) (playerAnim : PlayerAnim) :
    DefinedBy g (setAnimation g player playerAnim)
      (Call.event? ⟨g, .setAnimation player playerAnim⟩) := by
  apply DefinedBy.switch
  intro hg
  rcases player with _ | player
  · exact DefinedBy.nothing (by simp [Call.event?, hg])
  refine DefinedBy.ite (fun ha => ?_) (fun ha => DefinedBy.nothing (by simp [Call.event?, hg, ha]))
  refine DefinedBy.ite (fun hi ρ => ?_) (fun hi => DefinedBy.nothing ?_)
  · refine Defined.congr (Defined.entindex <|
      Defined.andThen (Defined.bump _ _ _) fun _ =>
      Defined.index fun w => Defined.bump _ _ _) ?_
    simp [Call.event?, hg, ha, hi, Event.InBounds, ItemInBounds]
  · simp [Call.event?, hg, ha, not_not.mp hi]

theorem definedBy_addAccount (player : Option CBasePlayer) (amount : CInt) (type : ℤ) :
    DefinedBy g (addAccount g player amount type)
      (Call.event? ⟨g, .addAccount player amount type⟩) := by
  apply DefinedBy.switch
  intro hg
  rcases player with _ | player
  · exact DefinedBy.nothing (by simp [Call.event?, hg])
  refine DefinedBy.ite (fun ht ρ => ?_)
    (fun ht => DefinedBy.nothing (by simp [Call.event?, hg, ht]))
  refine Defined.congr (Defined.entindex <| Defined.index fun t => Defined.bump _ _ _) ?_
  -- the test on the reward type is the bound of the table
  have hbound : 0 ≤ type ∧ type < rewardTypes := ⟨ht.1, Int.lt_add_one_of_le ht.2⟩
  refine iff_of_true ⟨hbound, trivial⟩ ?_
  simp [Call.event?, hg, ht, Event.InBounds]

theorem definedBy_plantBomb (pevOwner : ℤ) (planted : Bool) :
    DefinedBy g (plantBomb g pevOwner planted) (Call.event? ⟨g, .plantBomb pevOwner planted⟩) := by
  apply DefinedBy.switch
  intro hg
  rcases hp : g.playerByIndexSafe pevOwner with _ | player
  · exact DefinedBy.nothing (by simp [Call.event?, hg, hp])
  intro ρ
  have hbounds : ∀ e ∈ Call.event? ⟨g, .plantBomb pevOwner planted⟩, e.InBounds g ρ := by
    cases planted <;> simp [Call.event?, hg, hp, Event.InBounds]
  refine Defined.congr (φ := True) ?_ (iff_of_true trivial hbounds)
  exact Defined.entindex <| Defined.ite
    (fun _ => Defined.andThen (Defined.modify _) fun _ => Defined.bump _ _ _)
    (fun _ => Defined.andThen (Defined.modify _) fun _ => Defined.bump _ _ _)

theorem definedBy_defuseBombStart (player : Option CBasePlayer) :
    DefinedBy g (defuseBombStart g player) (Call.event? ⟨g, .defuseBombStart player⟩) := by
  apply DefinedBy.switch
  intro hg
  rcases player with _ | player
  · exact DefinedBy.nothing (by simp [Call.event?, hg])
  intro ρ
  refine Defined.congr (Defined.entindex <| Defined.bump _ _ _) ?_
  simp [Call.event?, hg, Event.InBounds]

theorem definedBy_defuseBombEnd (player : Option CBasePlayer) (defused : Bool) :
    DefinedBy g (defuseBombEnd g player defused)
      (Call.event? ⟨g, .defuseBombEnd player defused⟩) := by
  apply DefinedBy.switch
  intro hg
  rcases player with _ | player
  · exact DefinedBy.nothing (by simp [Call.event?, hg])
  refine DefinedBy.ite (fun h ρ => ?_) (fun h => DefinedBy.nothing (by simp [Call.event?, hg, h]))
  refine Defined.congr (Defined.entindex <|
    Defined.andThen (Defined.bump _ _ _) fun _ => Defined.modify _) ?_
  simp [Call.event?, hg, h, Event.InBounds]

theorem definedBy_explodeBomb : DefinedBy g (explodeBomb g) (Call.event? ⟨g, .explodeBomb⟩) := by
  apply DefinedBy.switch
  intro hg ρ
  refine Defined.congr (φ := True) ?_ (by simp [Call.event?, hg, Event.InBounds])
  refine Defined.get fun s _ => Defined.ite (fun _ => ?_) fun _ => Defined.pure
  rcases g.playerByIndexSafe s.roundBombPlanter with _ | player
  · exact Defined.pure
  · exact Defined.entindex <| Defined.bump _ _ _

theorem definedBy_roundFreezeEnd :
    DefinedBy g (roundFreezeEnd g) (Call.event? ⟨g, .roundFreezeEnd⟩) := by
  refine DefinedBy.switch fun hg ρ => (Defined.modify _).congr ?_
  simp [Call.event?, hg, Event.InBounds]

theorem defined_payBomber (bomber : ℤ) (q : ℚ) : Defined (payBomber g bomber q) ρ True := by
  refine Defined.ite (fun _ => ?_) fun _ => Defined.pure
  rcases g.playerByIndexSafe bomber with _ | player
  · exact Defined.pure
  · exact Defined.entindex <| Defined.payShare _ _

theorem defined_payObjective (event : ScenarioEventEndRound) :
    Defined (payObjective g event) ρ True :=
  Defined.get fun _ _ => Defined.ite (fun _ => defined_payBomber _ _) fun _ =>
    Defined.ite (fun _ => defined_payBomber _ _) fun _ => Defined.pure

/-- A positive counter is an index of its table when it is in bounds. -/
theorem streakInBounds_iff {n : CInt} (h : 0 < n.toInt) :
    (0 ≤ n.toInt ∧ n.toInt < (maxClients + 1 : ℕ)) ∧ True ↔ StreakInBounds n := by
  rw [and_true, and_iff_right h.le, StreakInBounds, Nat.cast_succ, Int.lt_add_one_iff]

theorem streakInBounds_of_not {n : CInt} (h : ¬ 0 < n.toInt) : StreakInBounds n :=
  (not_lt.mp h).trans (Int.natCast_nonneg _)

theorem defined_payCount (k : Slot) (n : CInt) (x : Fin (maxClients + 1) → Counter) :
    Defined (do if 0 < n.toInt then bump k (x (← index (maxClients + 1) n.toInt)) 1) ρ
      (StreakInBounds n) := by
  refine Defined.ite (fun h => ?_) (fun h => ?_)
  · exact Defined.congr (Defined.index fun n => Defined.bump _ _ _) (streakInBounds_iff h)
  · exact Defined.pure.congr (iff_of_true trivial (streakInBounds_of_not h))

theorem defined_payKillStreak (k : Slot) :
    Defined (payKillStreak k) ρ (StreakInBounds (ρ.roundFrags k)) := by
  apply Defined.get
  intro s hs
  subst hs
  exact defined_payCount k _ .killStreak

theorem defined_payVersus (k : Slot) :
    Defined (payVersus k) ρ (StreakInBounds (ρ.roundVersus k)) := by
  apply Defined.get
  intro s hs
  subst hs
  exact defined_payCount k _ .versus

theorem defined_payWinShare (k : Slot) (winner : TeamName) (event : ScenarioEventEndRound) :
    Defined (payWinShare k winner event) ρ True :=
  Defined.get fun _ _ => Defined.ite
    (fun _ => Defined.ite (fun _ => Defined.payShare _ _) fun _ => Defined.payShare _ _)
    fun _ => Defined.pure

theorem defined_roundEndTurn (e : Settlement) (i : ℤ) :
    Defined (roundEndTurn g e.winner e.event i) ρ
      (∀ temp ∈ g.playerByIndexSafe i, StreakInBounds (ρ.roundFrags temp.slot) ∧
        (temp.team = e.winner → StreakInBounds (ρ.roundVersus temp.slot))) := by
  unfold roundEndTurn
  rcases g.playerByIndexSafe i with _ | temp
  · exact Defined.pure.congr (by simp)
  refine Defined.congr (Defined.entindex <| Defined.seq (Effect.bump _ _ _) (Defined.bump _ _ _) <|
    Defined.bind (effect_payKillStreak _) (defined_payKillStreak _) <|
    Defined.ite (φ := temp.team = e.winner → StreakInBounds (ρ.roundVersus temp.slot))
      (fun hw => ?_) (fun hw => ?_)) (by simp)
  · refine Defined.congr (Defined.seq (Effect.bump _ _ _) (Defined.bump _ _ _) <|
      Defined.bind (effect_payVersus _) (defined_payVersus _) <| defined_payWinShare _ _ _) ?_
    simp [hw]
  · exact (Defined.bump _ _ _).congr (by simp [hw])

theorem definedBy_roundEnd (winStatus : ℤ) (event : ScenarioEventEndRound) :
    DefinedBy g (roundEnd g winStatus event) (Call.event? ⟨g, .roundEnd winStatus event⟩) := by
  apply DefinedBy.switch
  intro hg
  refine DefinedBy.ite (fun hw ρ => ?_)
    (fun hw => DefinedBy.nothing (by simp [Call.event?, hg, hw]))
  set e : Settlement := ⟨if winStatus = winstatusTerrorists then .terrorist else .ct, event⟩
  refine Defined.congr (Defined.seq (effect_payObjective e) (defined_payObjective event) <|
    Defined.forM (effect_roundEndTurn e) (defined_roundEndTurn e) g.clients) ?_
  simp only [Call.event?, hg, hw, if_true, Option.mem_def, Option.some.injEq, forall_eq',
    Event.InBounds]
  -- the loop visits the slots that have a player
  constructor
  · intro h j temp htemp
    obtain rfl := Server.slot_of_playerAt htemp
    exact h _ (Server.mem_clients_of_playerByIndexSafe htemp) temp htemp
  · intro h i _ temp htemp
    exact h temp.slot temp (Server.playerAt_slot htemp)

/-- **A call succeeds exactly when the indices of its event are in bounds.** -/
theorem Call.exec_defined (c : Call) (s : CStats) :
    (∃ s', c.exec s = .ok s') ↔ ∀ e ∈ c.event?, e.InBounds c.server s.toRoundState := by
  simp only [Call.exec_ok_iff]
  obtain ⟨g, handler⟩ := c
  cases handler with
  | serverActivate => exact iff_of_true ⟨_, rfl⟩ (by simp [Call.event?])
  | serverDeactivate => exact iff_of_true ⟨_, rfl⟩ (by simp [Call.event?])
  | getIntoGame player =>
    refine iff_of_true ?_ (by simp [Call.event?])
    simp only [Handler.body, getIntoGame, CBasePlayer.index_entindex]
    rcases player.edict with _ | edict
    · exact ⟨_, rfl⟩
    · exact ⟨_, rfl⟩
  | disconnected player =>
    refine iff_of_true ?_ (by simp [Call.event?])
    simp only [Handler.body, disconnected, CBasePlayer.index_entindex]
    exact ⟨_, rfl⟩
  | addAccount player amount type => exact definedBy_addAccount player amount type _ s rfl
  | takeDamage player pevInflictor pevAttacker =>
    exact definedBy_takeDamage player pevInflictor pevAttacker _ s rfl
  | killed player pevAttacker => exact definedBy_killed player pevAttacker _ s rfl
  | setAnimation player playerAnim => exact definedBy_setAnimation player playerAnim _ s rfl
  | plantBomb pevOwner planted => exact definedBy_plantBomb pevOwner planted _ s rfl
  | defuseBombStart player => exact definedBy_defuseBombStart player _ s rfl
  | defuseBombEnd player defused => exact definedBy_defuseBombEnd player defused _ s rfl
  | explodeBomb => exact definedBy_explodeBomb _ s rfl
  | roundFreezeEnd => exact definedBy_roundFreezeEnd _ s rfl
  | roundEnd winStatus event => exact definedBy_roundEnd winStatus event _ s rfl

end StatsX
