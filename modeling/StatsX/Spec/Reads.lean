import StatsX.Spec.Replay

/-!
# What the events read of the round, and whom they touch

An event that adds to a record may look at a few of the round members first. What it adds is the
same for two rounds that agree on these. To the records of those whom it does not touch it adds
nothing.

## Main definitions

* `Event.touches`: the event may add to the integers of a record

## Main results

* `Kill.posts_congr`, `Settlement.posts_congr`, `Event.posts_congr`: the integers
* `Event.pays_congr`: the shares
* `Event.inBounds_congr`: the indices
-/

namespace StatsX

variable {g : Server} {j : Slot} {ρ ρ' : RoundState}

/-- A kill reads the damage that its victim has taken from the player of the record. -/
theorem Kill.posts_congr (e : Kill)
    (h : ρ.roundDamage j e.victim.slot = ρ'.roundDamage j e.victim.slot) (x : Counter) :
    e.posts g ρ j x = e.posts g ρ' j x := by
  cases x with
  | assists =>
    have hassists : e.Assists g ρ j ↔ e.Assists g ρ' j := by rw [Assists, Assists, h]
    exact if_congr hassists rfl rfl
  | weaponStats _ s => cases s <;> rfl
  | hackStats s => cases s <;> rfl
  | _ => rfl

/-- A settlement reads the kills of the player of the record and its alone-against count. -/
theorem Settlement.posts_congr (e : Settlement) (hfrags : ρ.roundFrags j = ρ'.roundFrags j)
    (hversus : ρ.roundVersus j = ρ'.roundVersus j) (x : Counter) :
    e.posts g ρ j x = e.posts g ρ' j x := by
  unfold Settlement.posts
  cases g.playerAt j with
  | none => rfl
  | some temp =>
    cases x with
    | killStreak n => simp only [Settlement.postsAt, hfrags]
    | versus n => simp only [Settlement.postsAt, hversus]
    | rounds r => cases r <;> rfl
    | _ => rfl

namespace Event

variable {event : Event}

/-- The event may add to the integers of the record `j`. -/
def touches (j : Slot) : Event → Bool
  | .hit h => j = h.attacker.slot ∨ j = h.victim.slot
  | .shot player => j = player.slot
  | .payment player _ _ => j = player.slot
  | .planting player => j = player.slot
  | .planted player => j = player.slot
  | .defusing player => j = player.slot
  | .defused player => j = player.slot
  | .start => false
  | _ => true

theorem posts_eq_zero (h : event.touches j = false) (x : Counter) : event.posts g ρ j x = 0 := by
  cases event with
  | hit hit =>
    have hj : j ≠ hit.attacker.slot ∧ j ≠ hit.victim.slot := by simpa [touches] using h
    cases x with
    | weaponStats w s => cases s <;> simp [posts, Hit.posts, hj]
    | _ => simp [posts, Hit.posts, hj]
  | start => rfl
  | shot player | payment player _ _ | planting player | planted player | defusing player
  | defused player =>
    have hj : j ≠ player.slot := by simpa [touches] using h
    cases x with
    | weaponStats w s => cases s <;> simp [posts, hj]
    | bombStats s => cases s <;> simp [posts, hj]
    | _ => simp [posts, hj]
  | _ => exact Bool.noConfusion h

/-- Only the kills, the explosions and the settlements read the round for the integers. -/
theorem posts_congr
    (hkill : ∀ e, event = .kill e →
      ρ.roundDamage j e.victim.slot = ρ'.roundDamage j e.victim.slot)
    (hexplosion : event = .explosion → ρ.roundBombPlanter = ρ'.roundBombPlanter)
    (hsettle : ∀ e, event = .settle e →
      ρ.roundFrags j = ρ'.roundFrags j ∧ ρ.roundVersus j = ρ'.roundVersus j) (x : Counter) :
    event.posts g ρ j x = event.posts g ρ' j x := by
  cases event with
  | hit _ => rfl
  | kill e => exact e.posts_congr (hkill e rfl) x
  | settle e => exact e.posts_congr (hsettle e rfl).1 (hsettle e rfl).2 x
  | explosion =>
    cases x with
    | bombStats s =>
      cases s with
      | exploded => simp only [posts, hexplosion rfl]
      | _ => rfl
    | _ => rfl
  | _ =>
    cases x with
    | weaponStats _ s => cases s <;> rfl
    | bombStats s => cases s <;> rfl
    | _ => rfl

/-- Only the settlements read the round for the shares. -/
theorem pays_congr (hsettle : ∀ e, event = .settle e →
      ρ.roundDamageSelf = ρ'.roundDamageSelf ∧ ρ.roundDamageTeam = ρ'.roundDamageTeam ∧
        ρ.roundBombPlanter = ρ'.roundBombPlanter ∧ ρ.roundBombDefuser = ρ'.roundBombDefuser) :
    event.pays g ρ j = event.pays g ρ' j := by
  cases event with
  | settle e =>
    obtain ⟨hself, hteam, hplanter, hdefuser⟩ := hsettle e rfl
    simp only [pays, Settlement.objectiveShare, Settlement.damageShare, Settlement.quotient,
      hself, hteam, hplanter, hdefuser]
  | _ => rfl

/-- Only the settlements compute indices from the round. -/
theorem inBounds_congr (hsettle : ∀ e, event = .settle e →
      ρ.roundFrags = ρ'.roundFrags ∧ ρ.roundVersus = ρ'.roundVersus) :
    event.InBounds g ρ ↔ event.InBounds g ρ' := by
  cases event with
  | settle e =>
    obtain ⟨hfrags, hversus⟩ := hsettle e rfl
    simp only [InBounds, hfrags, hversus]
  | _ => exact Iff.rfl

end Event

end StatsX
