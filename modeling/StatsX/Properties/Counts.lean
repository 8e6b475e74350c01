import StatsX.Lib.Word
import StatsX.Spec.Replay

/-!
# Counts are exact

Most integers of a record count something: an event adds one to them or nothing. Before `2 ^ 31`
calls such an integer cannot have wrapped, whatever the calls, and it is the number of calls since
the last reset of the record that were booked under it. The others add up amounts that the game
delivers; they do not wrap as long as these stay small together.

## Main definitions

* `Counter.counts`: the integers that count
* `occurrences calls j x`: the number of calls booked under the integer `x` of the record `j`
* `Call.magnitude`: a bound for what a call adds to any integer of a record

## Main results

* `value_eq_occurrences`: a count is the number of the calls booked under it
* `fitsAll_of_magnitude`: no addition of a run wraps when its magnitudes sum to less than `2 ^ 31`
-/

namespace StatsX

/-- The integer counts calls, and adds up no amounts. -/
def Counter.counts : Counter → Bool
  | .damage => false
  | .damageReceive => false
  | .hitBoxDamage _ => false
  | .weaponStats _ .damage => false
  | .money _ => false
  | _ => true

/-- One or nothing. -/
def IsUnit (d : CInt) : Prop := d = 0 ∨ d = 1

theorem isUnit_ite {c : Prop} [Decidable c] : IsUnit (if c then 1 else 0) := by
  split_ifs
  · exact .inr rfl
  · exact .inl rfl

theorem isUnit_zero : IsUnit 0 := .inl rfl

theorem Hit.isUnit_posts (h : Hit) (j : Slot) {x : Counter} (hx : x.counts = true) :
    IsUnit (h.posts j x) := by
  cases x with
  | hits | hitBox _ => exact isUnit_ite
  | weaponStats w s =>
    cases s with
    | hit => exact isUnit_ite
    | damage => exact Bool.noConfusion hx
    | _ => exact isUnit_zero
  | damage | damageReceive | hitBoxDamage _ => exact Bool.noConfusion hx
  | _ => exact isUnit_zero

theorem Kill.isUnit_posts (e : Kill) (g : Server) (ρ : RoundState) (j : Slot) (x : Counter) :
    IsUnit (e.posts g ρ j x) := by
  cases x with
  | frags | assists | deaths | headshot => exact isUnit_ite
  | weaponStats w s =>
    cases s with
    | kill | death | headshot => exact isUnit_ite
    | _ => exact isUnit_zero
  | hackStats s => cases s <;> exact isUnit_ite
  | _ => exact isUnit_zero

theorem Settlement.isUnit_posts (e : Settlement) (g : Server) (ρ : RoundState) (j : Slot)
    (x : Counter) : IsUnit (e.posts g ρ j x) := by
  unfold posts
  cases g.playerAt j with
  | none => exact isUnit_zero
  | some temp =>
    cases x with
    | rounds r =>
      cases r with
      | play => exact .inr rfl
      | _ => exact isUnit_ite
    | killStreak _ | versus _ => exact isUnit_ite
    | _ => exact isUnit_zero

/-- **An event adds one or nothing** to an integer that counts. -/
theorem Event.isUnit_posts (event : Event) (g : Server) (ρ : RoundState) (j : Slot) {x : Counter}
    (hx : x.counts = true) : IsUnit (event.posts g ρ j x) := by
  cases event with
  | hit h => exact h.isUnit_posts j hx
  | kill e => exact e.isUnit_posts g ρ j x
  | settle e => exact e.isUnit_posts g ρ j x
  | _ =>
    cases x with
    | shots => first | exact isUnit_ite | exact isUnit_zero
    | weaponStats w s => cases s <;> first | exact isUnit_ite | exact isUnit_zero
    | bombStats s => cases s <;> first | exact isUnit_ite | exact isUnit_zero
    | money _ => exact Bool.noConfusion hx
    | _ => exact isUnit_zero

theorem Call.isUnit_posts (c : Call) (ρ : RoundState) (j : Slot) {x : Counter}
    (hx : x.counts = true) : IsUnit (c.posts ρ j x) := by
  unfold posts
  cases c.event? with
  | none =>
    rw [Option.elim_none]
    exact isUnit_zero
  | some event => exact event.isUnit_posts c.server ρ j hx

/-- **The number of calls booked under the integer `x` of the record `j`** since its last reset. -/
def occurrences (calls : List Call) (j : Slot) (x : Counter) : ℕ :=
  (momentsSince (Call.zeroes · j x) calls).countP fun m =>
    m.2.posts (.ofCalls (thisRound m.1)) j x = 1

theorem occurrences_concat (l : List Call) (c : Call) (j : Slot) (x : Counter) :
    occurrences (l ++ [c]) j x = if c.zeroes j x then 0 else
      occurrences l j x + if c.posts (.ofCalls (thisRound l)) j x = 1 then 1 else 0 := by
  rw [occurrences, momentsSince_concat]
  cases c.zeroes j x with
  | true => rfl
  | false => simp [occurrences, List.countP_append, List.countP_singleton]

theorem occurrences_le_length (calls : List Call) (j : Slot) (x : Counter) :
    occurrences calls j x ≤ calls.length := by
  calc occurrences calls j x ≤ (momentsSince (Call.zeroes · j x) calls).length :=
        List.countP_le_length
    _ = (since (Call.zeroes · j x) calls).length := by
        rw [← map_snd_momentsSince, List.length_map]
    _ ≤ calls.length := since_suffix.length_le

/-- What has been posted to an integer that counts is the number of the calls booked under it, as a
32-bit integer. -/
theorem posted_eq_ofNat {x : Counter} (hx : x.counts = true) (calls : List Call) (j : Slot) :
    posted calls j x = BitVec.ofNat 32 (occurrences calls j x) := by
  induction calls using List.reverseRecOn with
  | nil => rfl
  | append_singleton l c ih =>
    rw [posted_concat, occurrences_concat, ih]
    cases hz : c.zeroes j x with
    | true => simp [Call.posts_eq_zero_of_zeroes hz]
    | false =>
      rcases c.isUnit_posts (.ofCalls (thisRound l)) j hx with h | h
      · simp [h]
      · simp [h, BitVec.ofNat_add]

/-- **A count is the number of the calls booked under it**, in every run of less than `2 ^ 31`
calls. -/
theorem value_eq_occurrences {calls : List Call} {s : CStats} (h : Reaches calls s)
    (hlength : calls.length < 2 ^ 31) {x : Counter} (hx : x.counts = true) (j : Slot) :
    (s.data j).value x = occurrences calls j x := by
  obtain rfl := eq_ofCalls_of_reaches h
  show ((CPlayer.ofCalls calls j).cell x).toInt = _
  rw [CPlayer.ofCalls, CPlayer.cell_ofCells, posted_eq_ofNat hx]
  exact toInt_ofNat_of_lt ((occurrences_le_length calls j x).trans_lt hlength)

/-- The kill of the duel is counted once, and the hit before it as well. -/
theorem value_eq_occurrences_duel : ∃ s, Reaches [duelHit, duelKill] s ∧
    (s.data 1).value .frags = 1 ∧ (s.data 1).value .hits = 1 := by
  obtain ⟨s, hs⟩ : ∃ s, Reaches [duelHit, duelKill] s := exists_reaches rfl
  exact ⟨s, hs, value_eq_occurrences hs (by decide) rfl 1,
    value_eq_occurrences hs (by decide) rfl 1⟩

/-! ## Amounts -/

/-- A bound for what an event adds to any integer of a record: the amount that it delivers, or
one. -/
def Event.magnitude : Event → ℕ
  | .hit h => max 1 h.amount.toInt.natAbs
  | .payment _ _ amount => max 1 amount.toInt.natAbs
  | _ => 1

/-- The bound for a call. -/
def Call.magnitude (c : Call) : ℕ := c.event?.elim 0 Event.magnitude

theorem Event.one_le_magnitude (event : Event) : 1 ≤ event.magnitude := by
  cases event with
  | hit h => exact le_max_left _ _
  | payment player type amount => exact le_max_left _ _
  | _ => exact le_refl 1

/-- The integers that add up amounts change by hits and payments only. -/
theorem Event.posts_eq_zero_of_not_counts {event : Event} (hhit : ∀ h, event ≠ .hit h)
    (hpayment : ∀ player type amount, event ≠ .payment player type amount) (g : Server)
    (ρ : RoundState) (j : Slot) {x : Counter} (hx : x.counts = false) :
    event.posts g ρ j x = 0 := by
  cases event with
  | hit h => exact absurd rfl (hhit h)
  | payment player type amount => exact absurd rfl (hpayment player type amount)
  | settle e =>
    simp only [Event.posts, Settlement.posts]
    cases g.playerAt j with
    | none => rfl
    | some temp => cases x <;> first | rfl | exact Bool.noConfusion hx
  | _ =>
    cases x with
    | weaponStats w s => cases s <;> first | rfl | exact Bool.noConfusion hx
    | _ => first | rfl | exact Bool.noConfusion hx

/-- An amount that is booked or not. -/
theorem natAbs_toInt_ite_le {c : Prop} [Decidable c] (d : CInt) :
    (if c then d else 0).toInt.natAbs ≤ d.toInt.natAbs := by
  split_ifs
  · exact le_refl _
  · exact Nat.zero_le _

theorem Hit.natAbs_posts_le (h : Hit) (j : Slot) {x : Counter} (hx : x.counts = false) :
    (h.posts j x).toInt.natAbs ≤ h.amount.toInt.natAbs := by
  cases x with
  | damage | damageReceive | hitBoxDamage _ => exact natAbs_toInt_ite_le _
  | weaponStats w s =>
    cases s with
    | damage => exact natAbs_toInt_ite_le _
    | _ => exact Bool.noConfusion hx
  | money _ => exact Nat.zero_le _
  | _ => exact Bool.noConfusion hx

/-- **What an event adds to an integer** is bounded by its magnitude. -/
theorem Event.natAbs_posts_le (event : Event) (g : Server) (ρ : RoundState) (j : Slot)
    (x : Counter) : (event.posts g ρ j x).toInt.natAbs ≤ event.magnitude := by
  cases hx : x.counts with
  | true =>
    refine le_trans ?_ event.one_le_magnitude
    rcases event.isUnit_posts g ρ j hx with h | h <;> rw [h] <;> decide
  | false =>
    cases event with
    | hit h => exact (h.natAbs_posts_le j hx).trans (le_max_right _ _)
    | payment player type amount =>
      cases x with
      | money _ => exact (natAbs_toInt_ite_le _).trans (le_max_right _ _)
      | _ => exact Nat.zero_le _
    | _ =>
      rw [Event.posts_eq_zero_of_not_counts (by simp) (by simp) g ρ j hx]
      exact Nat.zero_le _

theorem Call.natAbs_posts_le (c : Call) (ρ : RoundState) (j : Slot) (x : Counter) :
    (c.posts ρ j x).toInt.natAbs ≤ c.magnitude := by
  unfold posts magnitude
  cases c.event? with
  | none => exact le_refl 0
  | some event => exact event.natAbs_posts_le c.server ρ j x

/-- One more call fits when it stays below `2 ^ 31` together with the value that it meets. -/
theorem Call.fits_of_natAbs {c : Call} {s : CStats}
    (h : ∀ j x, ((s.data j).value x).natAbs + c.magnitude < 2 ^ 31) : c.Fits s := by
  intro j x _
  have hvalue := h j x
  have hposts := c.natAbs_posts_le s.toRoundState j x
  apply toInt_add_of_natAbs_lt
  rw [CPlayer.value] at hvalue
  omega

theorem sum_magnitude_le {p calls : List Call} {c : Call} (hp : p ++ [c] <+: calls) :
    (p.map Call.magnitude).sum + c.magnitude ≤ (calls.map Call.magnitude).sum := by
  obtain ⟨q, rfl⟩ := hp
  rw [List.map_append, List.map_append, List.sum_append, List.sum_append, List.map_singleton,
    List.sum_singleton]
  exact Nat.le_add_right _ _

/-- The integers of the records after a run whose magnitudes stay below `2 ^ 31` together. -/
theorem natAbs_value_le {calls : List Call} (hsum : (calls.map Call.magnitude).sum < 2 ^ 31)
    {s : CStats} (h : Reaches calls s) (j : Slot) (x : Counter) :
    ((s.data j).value x).natAbs ≤ (calls.map Call.magnitude).sum := by
  revert j x
  refine run_induction (P := fun l s => ∀ j x,
    ((s.data j).value x).natAbs ≤ (l.map Call.magnitude).sum) ?_ ?_ h
  · intro j x
    rw [CPlayer.value, CStats.initial, CPlayer.cell_zeroed]
    exact Nat.zero_le _
  intro p c t t' hp _ ih hc j x
  have hprefix := sum_magnitude_le hp
  rw [List.map_append, List.sum_append, List.map_singleton, List.sum_singleton]
  -- the additions of the call have not wrapped
  have hfits : c.Fits t := Call.fits_of_natAbs fun j x => by
    have := ih j x
    omega
  have hposts := c.natAbs_posts_le t.toRoundState j x
  have hvalue := ih j x
  rw [hfits.value_exec hc]
  split_ifs <;> omega

/-- **No addition of a run wraps** when the amounts of its hits and payments, with at least one for
each call that records something, stay below `2 ^ 31` together. -/
theorem fitsAll_of_magnitude {calls : List Call}
    (hsum : (calls.map Call.magnitude).sum < 2 ^ 31) : FitsAll calls := by
  intro p c t hp ht
  have hprefix := sum_magnitude_le hp
  refine Call.fits_of_natAbs fun j x => ?_
  have hvalue := natAbs_value_le (by omega) ht j x
  omega

end StatsX
