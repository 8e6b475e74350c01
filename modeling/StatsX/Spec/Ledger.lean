import StatsX.Spec.Round
import StatsX.Spec.Safety

/-!
# The records as ledgers

An integer of a record is a sum as well: of what the calls added to it since it was last set to
zero. For the integers that only hits change this is a tally of the hits since then.

## Main definitions

* `Call.isMapChange`: the call resets all the records at once
* `dealt l j`: the damage that the player in slot `j` dealt in the calls `l`
* `CPlayer.value`, `Call.Fits`: the integers as such, and calls whose additions do not wrap

## Main results

* `cell_of_reaches`: an integer whose gains do not depend on the round is the sum of its gains
* `damage_of_reaches`: `damage` is the damage dealt since the last reset of the record
* `frags_of_reaches`: `frags` is the number of kills since the last reset of the record
* `sum_hitBoxDamage_of_reaches`: the table `hitBoxDamage` sums to the damage dealt since the last
  change of the map
-/

namespace StatsX

namespace Call

/-- The call resets all the records at once, as the map changes. -/
def isMapChange (c : Call) : Bool :=
  match c.handler with
  | .serverActivate => true
  | .serverDeactivate => true
  | _ => false

variable {c : Call} {ρ : RoundState} {j : Slot} {x : Counter}

theorem zeroes_eq_resets (hx : x.survives = false) : c.zeroes j x = c.resets j := by
  obtain ⟨g, handler⟩ := c
  cases handler <;> simp [zeroes, resets, hx]

theorem zeroes_eq_isMapChange (hx : x.survives = true) : c.zeroes j x = c.isMapChange := by
  obtain ⟨g, handler⟩ := c
  cases handler <;> simp [zeroes, isMapChange, hx]

theorem resets_of_isMapChange (h : c.isMapChange = true) : c.resets j = true := by
  obtain ⟨g, handler⟩ := c
  cases handler <;> simp_all [resets, isMapChange]

theorem posts_eq_zero_of_zeroes (h : c.zeroes j x = true) : c.posts ρ j x = 0 := by
  rw [posts, event?_eq_none_of_resets (resets_of_zeroes h), Option.elim_none]

end Call

/-! ## Sums over calls -/

/-- **An integer whose gains do not depend on the round** is the sum of its gains since it was
last set to zero. -/
theorem cell_of_reaches {j : Slot} {x : Counter} {gain : Call → CInt}
    (hgain : ∀ c ρ, c.posts ρ j x = gain c) {calls : List Call} {s : CStats}
    (h : Reaches calls s) :
    (s.data j).cell x = ((since (Call.zeroes · j x) calls).map gain).sum := by
  -- the counter starts from zero, a call that zeroes it adds nothing, and any other adds its gain
  refine run_eq_sum_since (v := fun s => (s.data j).cell x) (CPlayer.cell_zeroed x) ?_ ?_ h
  · intro c hc
    rw [← hgain c .initial, Call.posts_eq_zero_of_zeroes hc]
  · intro c t t' ht
    rw [(Call.exec_ok ht).cell, hgain]

/-- The damage that a call books under the key `x`. -/
def Call.booked {K : Type*} [DecidableEq K] (key : Hit → K) (x : K) (c : Call) : CInt :=
  c.hit?.elim 0 fun h => if key h = x then h.amount else 0

theorem Call.booked_of_resets {K : Type*} [DecidableEq K] (key : Hit → K) (x : K) {c : Call}
    {k : Slot} (h : c.resets k = true) : c.booked key x = 0 := by
  rw [Call.booked, Call.hit?, Call.event?_eq_none_of_resets h]
  rfl

theorem tally_hits_concat {K : Type*} [DecidableEq K] (key : Hit → K) (x : K) (l : List Call)
    (c : Call) : tally key Hit.amount (hits (l ++ [c])) x =
      tally key Hit.amount (hits l) x + c.booked key x := by
  rw [hits_concat, tally_append, Call.booked]
  cases c.hit? with
  | none => rfl
  | some h => exact congrArg _ (tally_singleton key Hit.amount h x)

theorem sum_map_booked {K : Type*} [DecidableEq K] (key : Hit → K) (x : K) (l : List Call) :
    (l.map (Call.booked key x)).sum = tally key Hit.amount (hits l) x := by
  induction l using List.reverseRecOn with
  | nil => rfl
  | append_singleton l c ih =>
    rw [List.map_append, List.sum_append, ih, tally_hits_concat, List.map_singleton,
      List.sum_singleton]

/-- The damage that the players in slot `j` dealt in the calls `l`. -/
def dealt (l : List Call) (j : Slot) : CInt := tally Hit.dealer Hit.amount (hits l) j

/-! ## Damage -/

theorem Call.posts_damage (c : Call) (ρ : RoundState) (j : Slot) :
    c.posts ρ j .damage = c.booked Hit.dealer j := by
  unfold posts booked hit?
  rcases c.event? with _ | e
  · rfl
  cases e with
  | hit h => simp only [Option.elim_some, Event.posts, Hit.posts, Hit.dealer, eq_comm]
  | settle e =>
    simp only [Option.elim_some, Event.posts, Settlement.posts]
    cases c.server.playerAt j <;> rfl
  | _ => rfl

/-- **`damage` is the damage dealt since the last reset of the record.** -/
theorem damage_of_reaches {calls : List Call} {s : CStats} (h : Reaches calls s) (j : Slot) :
    (s.data j).damage = dealt (since (Call.resets · j) calls) j := by
  have := cell_of_reaches (x := .damage) (fun c ρ => c.posts_damage ρ j) h
  rw [sum_map_booked] at this
  simp only [Call.zeroes_eq_resets (x := .damage) rfl] at this
  exact this

/-! ## Kills -/

theorem Call.posts_frags (c : Call) (ρ : RoundState) (j : Slot) :
    c.posts ρ j .frags = BitVec.ofNat 32 (c.killsBy j) := by
  unfold posts killsBy kill?
  rcases c.event? with _ | e
  · rfl
  cases e with
  | kill e =>
    by_cases hj : j = e.killer.slot
    · simp [Event.posts, Kill.posts, hj]
    · simp [Event.posts, Kill.posts, hj, Ne.symm hj]
  | settle e =>
    simp only [Option.elim_some, Event.posts, Settlement.posts]
    cases c.server.playerAt j <;> rfl
  | _ => rfl

/-- **`frags` is the number of kills since the last reset of the record.** -/
theorem frags_of_reaches {calls : List Call} {s : CStats} (h : Reaches calls s) (j : Slot) :
    (s.data j).frags = BitVec.ofNat 32 (killCount (since (Call.resets · j) calls) j) := by
  refine run_induction (P := fun l s => (s.data j).frags =
    BitVec.ofNat 32 (killCount (since (Call.resets · j) l) j)) rfl ?_ h
  intro p c t t' _ _ ih ht
  have hfrags : (t'.data j).frags = _ := (Call.exec_ok ht).cell j .frags
  rw [hfrags, Call.zeroes_eq_resets rfl, since_concat, Call.posts_frags]
  -- the sum of the rule is a sum of words; here the kills are counted before they become one
  cases hreset : c.resets j with
  | true => simp [Call.killsBy, Call.kill?, Call.event?_eq_none_of_resets hreset, killCount, kills]
  | false =>
    rw [if_neg Bool.false_ne_true, if_neg Bool.false_ne_true, killCount_concat, BitVec.ofNat_add]
    exact congrArg (· + _) ih

/-! ## Hit groups -/

/-- A hit that is recorded lands in a hit group. -/
theorem hitGroup_of_exec {c : Call} {s s' : CStats} (h : c.exec s = .ok s') {hit : Hit}
    (hhit : c.event? = some (.hit hit)) :
    ∃ i : Fin hitGroups, (i.val : ℤ) = hit.victim.lastHitGroup := by
  obtain ⟨⟨h₀, h₉⟩, -⟩ := (c.exec_defined s).mp ⟨s', h⟩ _ hhit
  exact ⟨⟨hit.victim.lastHitGroup.toNat, by omega⟩, Int.toNat_of_nonneg h₀⟩

/-- A sum over the hit groups of amounts booked on one of them. -/
theorem sum_hitGroup {a : Prop} [Decidable a] {i : Fin hitGroups} {group : ℤ}
    (hi : (i.val : ℤ) = group) (d : CInt) :
    (∑ i' : Fin hitGroups, if a ∧ (i'.val : ℤ) = group then d else 0) = if a then d else 0 := by
  subst hi
  simp only [Int.natCast_inj, Fin.val_inj, ite_and, Finset.sum_ite_irrel, Finset.sum_ite_eq',
    Finset.mem_univ, if_true, Finset.sum_const_zero]

/-- What a call adds to the tables of hit groups sums to what it adds to the totals. -/
theorem sum_posts_hitGroup {c : Call} {s s' : CStats} (h : c.exec s = .ok s') (ρ : RoundState)
    (j : Slot) :
    ∑ i, c.posts ρ j (.hitBox i) = c.posts ρ j .hits ∧
      ∑ i, c.posts ρ j (.hitBoxDamage i) = c.posts ρ j .damage := by
  unfold Call.posts
  rcases he : c.event? with _ | e
  · simp
  cases e with
  | hit hit =>
    -- the hit group is an index of the tables, or the call would have failed
    obtain ⟨i, hi⟩ := hitGroup_of_exec h he
    exact ⟨sum_hitGroup hi 1, sum_hitGroup hi hit.amount⟩
  | settle e =>
    simp only [Option.elim_some, Event.posts, Settlement.posts]
    cases c.server.playerAt j <;> exact ⟨Finset.sum_const_zero, Finset.sum_const_zero⟩
  | _ => exact ⟨Finset.sum_const_zero, Finset.sum_const_zero⟩

/-- The key of a hit in the tables `hitBoxDamage` of all the slots. -/
def Hit.part (h : Hit) : Slot × ℤ := (h.attacker.slot, h.victim.lastHitGroup)

theorem Call.posts_hitBoxDamage (c : Call) (ρ : RoundState) (j : Slot) (i : Fin hitGroups) :
    c.posts ρ j (.hitBoxDamage i) = c.booked Hit.part (j, (i.val : ℤ)) := by
  unfold posts booked hit?
  rcases c.event? with _ | e
  · rfl
  cases e with
  | hit h => simp only [Option.elim_some, Event.posts, Hit.posts, Hit.part, Prod.mk.injEq, eq_comm]
  | settle e =>
    simp only [Option.elim_some, Event.posts, Settlement.posts]
    cases c.server.playerAt j <;> rfl
  | _ => rfl

/-- **An entry of `hitBoxDamage` is the damage dealt to the hit group since the last change of the
map**, by all the players in the slot. -/
theorem hitBoxDamage_of_reaches {calls : List Call} {s : CStats} (h : Reaches calls s) (j : Slot)
    (i : Fin hitGroups) : (s.data j).hitBoxDamage i =
      tally Hit.part Hit.amount (hits (since Call.isMapChange calls)) (j, (i.val : ℤ)) := by
  have := cell_of_reaches (x := .hitBoxDamage i) (fun c ρ => c.posts_hitBoxDamage ρ j i) h
  rw [sum_map_booked] at this
  simp only [Call.zeroes_eq_isMapChange (x := .hitBoxDamage i) rfl] at this
  exact this

/-- **The table `hitBoxDamage` sums to the damage dealt since the last change of the map.** -/
theorem sum_hitBoxDamage_of_reaches {calls : List Call} {s : CStats} (h : Reaches calls s)
    (j : Slot) :
    ∑ i, (s.data j).hitBoxDamage i = dealt (since Call.isMapChange calls) j := by
  rw [dealt, ← sum_map_booked]
  refine run_eq_sum_since (v := fun s => ∑ i, (s.data j).hitBoxDamage i) (by simp; rfl) ?_ ?_ h
  · intro c hc
    exact Call.booked_of_resets _ _ (Call.resets_of_isMapChange (j := j) hc)
  · intro c t t' ht
    have hcell : ∀ i, (t'.data j).hitBoxDamage i = _ := fun i =>
      (Call.exec_ok ht).cell j (.hitBoxDamage i)
    simp only [hcell, Call.zeroes_eq_isMapChange (x := .hitBoxDamage _) rfl,
      Finset.sum_add_distrib, (sum_posts_hitGroup ht t.toRoundState j).2, Call.posts_damage]
    cases c.isMapChange <;> simp [CPlayer.cell]

/-! ## Exact additions -/

/-- The value of an integer of the record. -/
def CPlayer.value (r : CPlayer) (x : Counter) : ℤ := (r.cell x).toInt

/-- No addition of the call to an integer of a record wraps. -/
def Call.Fits (c : Call) (s : CStats) : Prop :=
  ∀ j x, c.zeroes j x = false → ((s.data j).cell x + c.posts s.toRoundState j x).toInt =
    ((s.data j).cell x).toInt + (c.posts s.toRoundState j x).toInt

/-- No addition of the run wraps. -/
def FitsAll (calls : List Call) : Prop :=
  ∀ p c t, p ++ [c] <+: calls → Reaches p t → c.Fits t

/-- The values of the integers of a record after a call that fits. -/
theorem Call.Fits.value_exec {c : Call} {s s' : CStats} (hfits : c.Fits s)
    (h : c.exec s = .ok s') (j : Slot) (x : Counter) : (s'.data j).value x =
      (if c.zeroes j x then 0 else (s.data j).value x) + (c.posts s.toRoundState j x).toInt := by
  rw [CPlayer.value, (exec_ok h).cell]
  cases hz : c.zeroes j x with
  | true => simp [posts_eq_zero_of_zeroes hz]
  | false =>
    rw [if_neg Bool.false_ne_true, if_neg Bool.false_ne_true]
    exact hfits j x hz

end StatsX
