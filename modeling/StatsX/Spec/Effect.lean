import StatsX.Model.Call

/-!
# Effects of computations

The records change by additions only, except when one is reset, and no computation on the
members reads a record to decide what to do. An `Effect` says what a successful computation
does from the round members `ρ`: the round members it leaves, what it adds to each integer of
each record, and what it adds to each `RoundWinShare`. There is one rule for each statement and
one for each way to combine computations.

## Main definitions

* `entry k x d`: the amount `d` for the integer `x` of the record `k`
* `Effect m ρ ρ' posts pays`: the effect of `m`

## Main results

* `Effect.bind`, `Effect.index`, `Effect.get`, `Effect.ite`: computations in sequence, behind an
  index, after a read, and behind a test
* `Effect.forM`: a loop whose turns leave the round members as they are
-/

namespace StatsX

/-- The amount `d` for the integer `x` of the record `k`. -/
def entry (k : Slot) (x : Counter) (d : CInt) : Slot → Counter → CInt :=
  fun j y => if j = k ∧ y = x then d else 0

/-- The share `q` for the record `k`. -/
def award (k : Slot) (q : WithTop ℚ) : Slot → WithTop ℚ :=
  fun j => if j = k then q else 0

/-- The members of a record that no event of a round changes. -/
def CPlayer.stamp (r : CPlayer) : CArray UInt8 35 × ℚ × ℚ :=
  (r.index, r.joinTime, r.gameTime)

@[simp] theorem CPlayer.stamp_add (r : CPlayer) (d : CInt) (x : Counter) :
    (r.add d x).stamp = r.stamp := by
  cases x <;> simp [add, stamp]

@[simp] theorem CPlayer.stamp_addShare (r : CPlayer) (q : WithTop ℚ) :
    (r.addShare q).stamp = r.stamp := rfl

/-- A record is its integers, its share and its stamp. -/
theorem CPlayer.ext_cell {r r' : CPlayer} (hcell : ∀ x, r.cell x = r'.cell x)
    (hshare : r.roundWinShare = r'.roundWinShare) (hstamp : r.stamp = r'.stamp) : r = r' := by
  -- member by member, a table entry by entry
  simp only [stamp, Prod.mk.injEq] at hstamp
  obtain ⟨hindex, hjoin, hgame⟩ := hstamp
  ext1
  · exact hindex
  · exact hcell .frags
  · exact hcell .assists
  · exact hcell .deaths
  · exact hcell .headshot
  · exact hcell .shots
  · exact hcell .hits
  · exact hcell .damage
  · exact hcell .damageReceive
  · exact hjoin
  · exact hgame
  · exact funext fun g => hcell (.rounds g)
  · exact hshare
  · exact funext fun g => hcell (.bombStats g)
  · exact funext fun i => hcell (.hitBox i)
  · exact funext fun i => hcell (.hitBoxDamage i)
  · exact funext fun w => funext fun g => hcell (.weaponStats w g)
  · exact funext fun n => hcell (.killStreak n)
  · exact funext fun n => hcell (.versus n)
  · exact funext fun t => hcell (.money t)
  · exact funext fun g => hcell (.hackStats g)

/-- From `s` to `s'`, the records grow by `posts` and `pays`. -/
structure Booked (s s' : CStats) (posts : Slot → Counter → CInt) (pays : Slot → WithTop ℚ) :
    Prop where
  cell : ∀ j x, (s'.data j).cell x = (s.data j).cell x + posts j x
  share : ∀ j, (s'.data j).roundWinShare = (s.data j).roundWinShare + pays j
  stamp : ∀ j, (s'.data j).stamp = (s.data j).stamp

namespace Booked

theorem of_data_eq {s s' : CStats} (h : s'.data = s.data) : Booked s s' 0 0 where
  cell := by simp [h]
  share := by simp [h]
  stamp := by simp [h]

theorem trans {s t u : CStats} {P P' : Slot → Counter → CInt} {Q Q' : Slot → WithTop ℚ}
    (h : Booked s t P Q) (h' : Booked t u P' Q') : Booked s u (P + P') (Q + Q') where
  cell := fun j x => by rw [h'.cell, h.cell, Pi.add_apply, Pi.add_apply, add_assoc]
  share := fun j => by rw [h'.share, h.share, Pi.add_apply, add_assoc]
  stamp := fun j => (h'.stamp j).trans (h.stamp j)

end Booked

/-- **The effect of a computation** that succeeds from the round members `ρ`: it leaves the round
members `ρ'`, and the records grow by `posts` and `pays`. -/
def Effect (m : StatsM Unit) (ρ ρ' : RoundState) (posts : Slot → Counter → CInt)
    (pays : Slot → WithTop ℚ) : Prop :=
  ∀ s s', s.toRoundState = ρ → m.run s = .ok ((), s') →
    s'.toRoundState = ρ' ∧ Booked s s' posts pays

namespace Effect

variable {ρ ρ₁ ρ₂ : RoundState} {P P' : Slot → Counter → CInt} {Q Q' : Slot → WithTop ℚ}
  {m : StatsM Unit}

theorem congr (h : Effect m ρ ρ₁ P Q) (hP : ∀ j x, P j x = P' j x) (hQ : ∀ j, Q j = Q' j) :
    Effect m ρ ρ₁ P' Q' := by
  obtain rfl : P = P' := funext fun j => funext fun x => hP j x
  obtain rfl : Q = Q' := funext hQ
  exact h

/-! ## Combining computations -/

theorem pure : Effect (Pure.pure ()) ρ ρ 0 0 := by
  rintro s s' rfl h
  obtain ⟨-, rfl⟩ := Prod.mk.inj (Except.ok.inj h)
  exact ⟨rfl, .of_data_eq rfl⟩

theorem bind {n : Unit → StatsM Unit} (hm : Effect m ρ ρ₁ P Q) (hn : Effect (n ()) ρ₁ ρ₂ P' Q') :
    Effect (m >>= n) ρ ρ₂ (P + P') (Q + Q') := by
  intro s s' hs h
  rw [StateT.run_bind, bind_ok_iff] at h
  obtain ⟨⟨⟨⟩, t⟩, ht, h⟩ := h
  obtain ⟨ht₁, hb⟩ := hm s t hs ht
  obtain ⟨hs', hb'⟩ := hn t s' ht₁ h
  exact ⟨hs', hb.trans hb'⟩

/-- What the first computation books is taken off what is left for the second. -/
theorem seq {n : Unit → StatsM Unit} (hm : Effect m ρ ρ₁ P' 0)
    (hn : Effect (n ()) ρ₁ ρ₂ (P - P') Q) : Effect (m >>= n) ρ ρ₂ P Q :=
  (hm.bind hn).congr (by simp) (by simp)

/-- Nothing is left to book. -/
theorem done (hP : ∀ j x, P j x = 0) (hQ : ∀ j, Q j = 0) : Effect (Pure.pure ()) ρ ρ P Q :=
  Effect.pure.congr (fun j x => (hP j x).symm) fun j => (hQ j).symm

theorem index {n : ℕ} {i : ℤ} {f : Fin n → StatsM Unit}
    (h : ∀ k : Fin n, (k.val : ℤ) = i → Effect (f k) ρ ρ₁ P Q) :
    Effect ((liftM (StatsX.index n i) : StatsM (Fin n)) >>= f) ρ ρ₁ P Q := by
  intro s s' hs hrun
  rw [StateT.run_bind, bind_ok_iff] at hrun
  obtain ⟨⟨k, t⟩, hk, hrun⟩ := hrun
  rw [StateT.run_monadLift, bind_ok_iff] at hk
  obtain ⟨k', hk', hkt⟩ := hk
  obtain ⟨rfl, rfl⟩ := Prod.mk.inj (Except.ok.inj hkt)
  exact h _ (index_ok_iff.mp hk') s s' hs hrun

/-- The index of a player is its slot. -/
theorem entindex {p : CBasePlayer} {f : Slot → StatsM Unit} (h : Effect (f p.slot) ρ ρ₁ P Q) :
    Effect ((liftM (StatsX.index (maxClients + 1) p.entindex) : StatsM Slot) >>= f) ρ ρ₁ P Q := by
  apply Effect.index
  intro k hk
  obtain rfl : k = p.slot := Fin.ext (by have := p.slot_val; omega)
  exact h

/-- The index of a team is the team as an index. -/
theorem team {t : TeamName} {f : TeamIndex → StatsM Unit} (h : Effect (f t.toIndex) ρ ρ₁ P Q) :
    Effect ((liftM (StatsX.index 4 t.toInt) : StatsM TeamIndex) >>= f) ρ ρ₁ P Q := by
  rw [TeamName.index_toInt]
  exact h

theorem get {f : CStats → StatsM Unit} (h : ∀ s, s.toRoundState = ρ → Effect (f s) ρ ρ₁ P Q) :
    Effect (MonadState.get >>= f) ρ ρ₁ P Q := by
  intro s s' hs hrun
  rw [StateT.run_bind, bind_ok_iff] at hrun
  obtain ⟨⟨t, t'⟩, ht, hrun⟩ := hrun
  obtain ⟨rfl, rfl⟩ := Prod.mk.inj (Except.ok.inj ht)
  exact h _ hs _ s' hs hrun

theorem ite {c : Prop} [Decidable c] {n : StatsM Unit} (hm : c → Effect m ρ ρ₁ P Q)
    (hn : ¬ c → Effect n ρ ρ₁ P Q) : Effect (if c then m else n) ρ ρ₁ P Q := by
  split_ifs with h
  · exact hm h
  · exact hn h

/-- **A loop** whose turn for the index `i` books on the record `i` only. -/
theorem forM {turn : ℤ → StatsM Unit} {F : Slot → Counter → CInt} {G : Slot → WithTop ℚ}
    (h : ∀ i, Effect (turn i) ρ ρ (fun j x => if (j.val : ℤ) = i then F j x else 0)
      (fun j => if (j.val : ℤ) = i then G j else 0))
    {l : List ℤ} (hl : l.Nodup) :
    Effect (l.forM turn) ρ ρ (fun j x => if (j.val : ℤ) ∈ l then F j x else 0)
      (fun j => if (j.val : ℤ) ∈ l then G j else 0) := by
  induction l with
  | nil => exact Effect.pure.congr (by simp) (by simp)
  | cons i l ih =>
    obtain ⟨hi, hl⟩ := List.nodup_cons.mp hl
    -- no index comes twice, so that a record is booked on by one turn at most
    refine ((h i).bind (ih hl)).congr ?_ ?_ <;> intro j <;> by_cases hj : (j.val : ℤ) = i
    · simp [hj, hi]
    · simp [hj]
    · simp [hj, hi]
    · simp [hj]

/-! ## Statements -/

theorem bump (k : Slot) (x : Counter) (d : CInt) :
    Effect (CStats.bump k x d) ρ ρ (entry k x d) 0 := by
  rintro s s' rfl h
  obtain ⟨-, rfl⟩ := Prod.mk.inj (Except.ok.inj h)
  refine ⟨rfl, ?_, ?_, ?_⟩ <;> intro j <;> by_cases hj : j = k <;> simp [entry, hj]

theorem bumpIf (c : Prop) [Decidable c] (k : Slot) (x : Counter) :
    Effect (CStats.bumpIf c k x) ρ ρ (entry k x (if c then 1 else 0)) 0 := by
  refine Effect.ite (fun h => ?_) (fun h => ?_)
  · simpa [h] using Effect.bump k x 1
  · exact Effect.pure.congr (by simp [entry, h]) (by simp)

theorem payShare (k : Slot) (q : WithTop ℚ) :
    Effect (CStats.payShare k q) ρ ρ 0 (award k q) := by
  rintro s s' rfl h
  obtain ⟨-, rfl⟩ := Prod.mk.inj (Except.ok.inj h)
  refine ⟨rfl, ?_, ?_, ?_⟩ <;> intro j <;> by_cases hj : j = k <;> simp [award, hj]

/-- A statement on the round members. -/
theorem modify {f : CStats → CStats}
    (hround : ∀ s, s.toRoundState = ρ → (f s).toRoundState = ρ₁)
    (hdata : ∀ s, (f s).data = s.data) :
    Effect (modify f) ρ ρ₁ 0 0 := by
  intro s s' hs h
  obtain ⟨-, rfl⟩ := Prod.mk.inj (Except.ok.inj h)
  exact ⟨hround s hs, .of_data_eq (hdata s)⟩

theorem addRoundDamage (a v : Slot) (d : CInt) :
    Effect (CStats.addRoundDamage a v d) ρ
      { ρ with roundDamage := fun a' v' => ρ.roundDamage a' v' +
        if a' = a ∧ v' = v then d else 0 } 0 0 := by
  refine Effect.modify ?_ fun _ => rfl
  rintro s rfl
  refine RoundState.ext (funext fun a' => funext fun v' => ?_) rfl rfl rfl rfl rfl rfl
  by_cases ha : a' = a <;> by_cases hv : v' = v <;> simp [ha, hv]

theorem addRoundDamageSelf (a : Slot) (d : CInt) :
    Effect (CStats.addRoundDamageSelf a d) ρ
      { ρ with roundDamageSelf := fun a' => ρ.roundDamageSelf a' + if a' = a then d else 0 }
      0 0 := by
  refine Effect.modify ?_ fun _ => rfl
  rintro s rfl
  refine RoundState.ext rfl (funext fun a' => ?_) rfl rfl rfl rfl rfl
  by_cases ha : a' = a <;> simp [ha]

theorem addRoundDamageTeam (t : TeamIndex) (d : CInt) :
    Effect (CStats.addRoundDamageTeam t d) ρ
      { ρ with roundDamageTeam := fun t' => ρ.roundDamageTeam t' + if t' = t then d else 0 }
      0 0 := by
  refine Effect.modify ?_ fun _ => rfl
  rintro s rfl
  refine RoundState.ext rfl rfl (funext fun t' => ?_) rfl rfl rfl rfl
  by_cases ht : t' = t <;> simp [ht]

theorem addRoundFrags (k : Slot) :
    Effect (CStats.addRoundFrags k) ρ
      { ρ with roundFrags := fun k' => ρ.roundFrags k' + if k' = k then 1 else 0 } 0 0 := by
  refine Effect.modify ?_ fun _ => rfl
  rintro s rfl
  refine RoundState.ext rfl rfl rfl (funext fun k' => ?_) rfl rfl rfl
  by_cases hk : k' = k <;> simp [hk]

end Effect

end StatsX
