import StatsX.Spec.Safety

/-!
# Damage by thrown objects

`TakeDamage` is told what has hurt the victim, the inflictor, and does not look at it: it asks
`IsWeapon` for the item that the attacker holds when the hit arrives. For a grenade in flight this
is whatever the attacker has switched to, and the tables `WeaponStats` book the hit under it.

## Main definitions

* `CBasePlayer.holding`, `Server.holding`: the same player, and server, with another active item
* `Throw`: a hit by something that is not the attacker itself
* `CBasePlayerItem.IsReported`: `IsWeapon` reports the id of the item
* `Throw.SameIndex`: `IsWeapon` reports the same for two items in the hands of the attacker

## Main results

* `sameIndex_some_iff`, `sameIndex_none_iff`: what this says on the fields of the items
* `weaponStats_eq_iff`: for every state and every pair of items, the tables are updated identically
  exactly when `IsWeapon` reports the same for both
-/

namespace StatsX

/-! ## What the attacker holds -/

/-- The player with another active item. -/
def CBasePlayer.holding (item : Option CBasePlayerItem) (p : CBasePlayer) : CBasePlayer :=
  { p with activeItem := item }

/-- The server at which the player with the index `i` holds another item. -/
def Server.holding (g : Server) (i : ℤ) (item : Option CBasePlayerItem) : Server where
  manager := g.manager
  maxClients := g.maxClients
  time := g.time
  privateData := fun k =>
    if k = i then (g.privateData k).map (CBasePlayer.holding item) else g.privateData k
  maxClients_le := g.maxClients_le
  entindex_eq := by
    intro k p hp
    split_ifs at hp
    · obtain ⟨p₀, hp₀, rfl⟩ := Option.map_eq_some_iff.mp hp
      exact g.entindex_eq k p₀ hp₀
    · exact g.entindex_eq k p hp

/-- The item is a weapon, in one of the four slots that `IsWeapon` knows, with an id of its own, and
neither a smoke grenade nor a flashbang. -/
def CBasePlayerItem.IsReported (item : CBasePlayerItem) : Prop :=
  item.isWeapon = true ∧ (item.itemSlot = primaryWeaponSlot ∨ item.itemSlot = pistolSlot ∨
    item.itemSlot = knifeSlot ∨ item.itemSlot = grenadeSlot) ∧
      item.id ≠ weaponNone ∧ item.id ≠ weaponSmokegrenade ∧ item.id ≠ weaponFlashbang

instance (item : CBasePlayerItem) : Decidable item.IsReported :=
  inferInstanceAs (Decidable (_ ∧ _))

theorem isWeapon_holding_none (p : CBasePlayer) (allowKnife : Bool) :
    CStats.isWeapon (p.holding none) allowKnife = weaponNone := rfl

/-- What `IsWeapon` reports of an item in a player's hands. -/
theorem isWeapon_holding_some (p : CBasePlayer) (item : CBasePlayerItem) :
    CStats.isWeapon (p.holding (some item)) true =
      if item.IsReported then item.id else weaponNone := by
  simp only [CStats.isWeapon, CBasePlayer.holding, CBasePlayerItem.IsReported]
  split_ifs <;> simp_all

theorem Server.playerByIndexSafe_holding (g : Server) (i : ℤ) (item : Option CBasePlayerItem) :
    (g.holding i item).playerByIndexSafe i =
      (g.playerByIndexSafe i).map (CBasePlayer.holding item) := by
  unfold playerByIndexSafe
  change (if 0 < i ∧ i ≤ g.maxClients then
    if i = i then (g.privateData i).map (CBasePlayer.holding item) else g.privateData i
      else none) = _
  rw [if_pos rfl]
  split_ifs <;> rfl

/-- A hit with the switch on, by an entity that is not the attacker itself. -/
structure Throw where
  server : Server
  victim : CBasePlayer
  pevInflictor : ℤ
  pevAttacker : ℤ
  enabled : server.manager.isEnabled = true
  thrown : pevInflictor ≠ pevAttacker

namespace Throw

variable (x : Throw)

/-- The victim, which may be the attacker that holds the item. -/
def victimWith (item : Option CBasePlayerItem) : CBasePlayer :=
  if x.victim.entindex = x.pevAttacker then x.victim.holding item else x.victim

/-- The call for the hit, with the item in the hands of the attacker. -/
def call (item : Option CBasePlayerItem) : Call :=
  ⟨x.server.holding x.pevAttacker item,
    .takeDamage (some (x.victimWith item)) (some x.pevInflictor) (some x.pevAttacker)⟩

/-- `IsWeapon` reports the same for two items in the hands of the attacker, if the attacker is a
player. -/
def SameIndex (item₁ item₂ : Option CBasePlayerItem) : Prop :=
  ∀ attacker, x.server.playerByIndexSafe x.pevAttacker = some attacker →
    CStats.isWeapon (attacker.holding item₁) true = CStats.isWeapon (attacker.holding item₂) true

section

variable {x} {attacker : CBasePlayer}

theorem sameIndex_iff (ha : x.server.playerByIndexSafe x.pevAttacker = some attacker)
    {item₁ item₂ : Option CBasePlayerItem} : x.SameIndex item₁ item₂ ↔
      CStats.isWeapon (attacker.holding item₁) true =
        CStats.isWeapon (attacker.holding item₂) true := by
  constructor
  · exact fun h => h attacker ha
  · intro h attacker' ha'
    obtain rfl := Option.some.inj (ha.symm.trans ha')
    exact h

/-- **On the fields of two items**: both are reported, with one id, or neither is. -/
theorem sameIndex_some_iff (ha : x.server.playerByIndexSafe x.pevAttacker = some attacker)
    {item₁ item₂ : CBasePlayerItem} : x.SameIndex (some item₁) (some item₂) ↔
      (item₁.IsReported ∧ item₂.IsReported ∧ item₁.id = item₂.id) ∨
        ¬ item₁.IsReported ∧ ¬ item₂.IsReported := by
  rw [sameIndex_iff ha, isWeapon_holding_some, isWeapon_holding_some]
  by_cases h₁ : item₁.IsReported <;> by_cases h₂ : item₂.IsReported
  · simp [h₁, h₂]
  · simpa [h₁, h₂] using h₁.2.2.1
  · simpa [h₁, h₂] using h₂.2.2.1.symm
  · simp [h₁, h₂]

/-- An item and an empty hand: the item is not reported. -/
theorem sameIndex_none_iff (ha : x.server.playerByIndexSafe x.pevAttacker = some attacker)
    {item : CBasePlayerItem} : x.SameIndex none (some item) ↔ ¬ item.IsReported := by
  rw [sameIndex_iff ha, isWeapon_holding_some, isWeapon_holding_none]
  by_cases h : item.IsReported
  · simpa [h] using h.2.2.1.symm
  · simp [h]

end

/-- The hit that is recorded. -/
theorem event?_call (item : Option CBasePlayerItem) : (x.call item).event? =
    (x.server.playerByIndexSafe x.pevAttacker).map fun attacker =>
      .hit ⟨x.victimWith item, attacker.holding item⟩ := by
  have hg : (x.call item).isEnabled = true := x.enabled
  rw [Call.event?, if_pos hg]
  simp only [call, Server.playerByIndexSafe_holding, Option.map_map]
  rfl

theorem amount_victimWith (item : Option CBasePlayerItem) :
    (x.victimWith item).lastDamageAmount = x.victim.lastDamageAmount := by
  unfold victimWith
  split_ifs <;> rfl

variable {x} {item : Option CBasePlayerItem} {s t : CStats}

/-- Without a player for the attacker the hit is not recorded. -/
theorem exec_of_none (h : (x.call item).exec s = .ok t)
    (hnone : x.server.playerByIndexSafe x.pevAttacker = none) : t = s := by
  have hevent : (x.call item).event? = none := by rw [event?_call, hnone, Option.map_none]
  exact Call.exec_eq_self h hevent (fun _ _ => rfl) (fun _ => rfl)

section

variable {attacker : CBasePlayer} (ha : x.server.playerByIndexSafe x.pevAttacker = some attacker)
  (h : (x.call item).exec s = .ok t)

include ha h

/-- What the hit books on the weapons: one hit and the damage, under the item that is held. -/
theorem weaponStats_exec (j : Slot) (w : Fin (maxWeapons + 1)) (k : WeaponStatsGroup) :
    (t.data j).weaponStats w k = (s.data j).weaponStats w k +
      if j = attacker.slot ∧ IsItem w (CStats.isWeapon (attacker.holding item) true) then
        match k with
        | .hit => 1
        | .damage => x.victim.lastDamageAmount
        | _ => 0
      else 0 := by
  have hevent : (x.call item).event? = some (.hit ⟨x.victimWith item, attacker.holding item⟩) := by
    rw [event?_call, ha, Option.map_some]
  have hcell := (Call.exec_event hevent h).2.1 j (.weaponStats w k)
  cases k with
  | hit => exact hcell
  | damage =>
    rw [← x.amount_victimWith item]
    exact hcell
  | _ =>
    rw [ite_self]
    exact hcell

/-- What `IsWeapon` reports is an index of the table, as the call has succeeded. -/
theorem itemInBounds_of_exec :
    ItemInBounds (CStats.isWeapon (attacker.holding item) true) := by
  have hevent : (x.call item).event? = some (.hit ⟨x.victimWith item, attacker.holding item⟩) := by
    rw [event?_call, ha, Option.map_some]
  exact ((Call.exec_defined _ s).mp ⟨t, h⟩ _ hevent).2

end

end Throw

/-- An index of the table of weapons is known by the entries it is booked under. -/
theorem eq_of_isItem_iff {i₁ i₂ : ℤ} (h₁ : ItemInBounds i₁) (h₂ : ItemInBounds i₂)
    (h : ∀ w, IsItem w i₁ ↔ IsItem w i₂) : i₁ = i₂ := by
  obtain ⟨w₁, hw₁⟩ := exists_index_ok_iff.mpr h₁
  obtain ⟨w₂, hw₂⟩ := exists_index_ok_iff.mpr h₂
  rw [index_ok_iff] at hw₁ hw₂
  -- one of the two is booked under its own entry, unless both are no weapon
  by_cases hzero : i₁ = 0
  · by_contra hne
    exact ((h w₂).mpr ⟨fun hi => hne (hzero.trans hi.symm), hw₂⟩).1 hzero
  · obtain ⟨-, hw⟩ := (h w₁).mp ⟨hzero, hw₁⟩
    rw [← hw₁, hw]

/-- **Two hits that differ in what the attacker holds update the tables identically** exactly when
`IsWeapon` reports the same for both items. -/
theorem weaponStats_eq_iff {x : Throw} {item₁ item₂ : Option CBasePlayerItem} {s t₁ t₂ : CStats}
    (h₁ : (x.call item₁).exec s = .ok t₁) (h₂ : (x.call item₂).exec s = .ok t₂) :
    (∀ j, (t₁.data j).weaponStats = (t₂.data j).weaponStats) ↔ x.SameIndex item₁ item₂ := by
  rcases ha : x.server.playerByIndexSafe x.pevAttacker with _ | attacker
  · obtain rfl := Throw.exec_of_none h₁ ha
    obtain rfl := Throw.exec_of_none h₂ ha
    exact iff_of_true (fun _ => rfl) fun attacker hattacker => by simp [ha] at hattacker
  constructor
  · intro htables attacker' hattacker
    obtain rfl := Option.some.inj (ha.symm.trans hattacker)
    refine eq_of_isItem_iff (Throw.itemInBounds_of_exec ha h₁) (Throw.itemInBounds_of_exec ha h₂) ?_
    intro w
    have hhits := congrFun (congrFun (htables attacker.slot) w) .hit
    rw [Throw.weaponStats_exec ha h₁, Throw.weaponStats_exec ha h₂, add_right_inj] at hhits
    simp only [true_and] at hhits
    by_contra hne
    rw [not_iff] at hne
    split_ifs at hhits <;> simp_all
  · intro hsame j
    funext w k
    rw [Throw.weaponStats_exec ha h₁, Throw.weaponStats_exec ha h₂, hsame attacker ha]

/-! ## Weapons that are switched -/

/-- A pistol, as an item. -/
def pistol : CBasePlayerItem := ⟨true, pistolSlot, 17⟩

/-- A knife, as an item. -/
def knife : CBasePlayerItem := ⟨true, knifeSlot, weaponKnife⟩

/-- A smoke grenade, as an item. -/
def smokeGrenade : CBasePlayerItem := ⟨true, grenadeSlot, weaponSmokegrenade⟩

/-- A grenade, with the entity index 40, that the terrorist of the duel has thrown. -/
def duelThrow : Throw where
  server := duelHit.server
  victim := duelCt
  pevInflictor := 40
  pevAttacker := 1
  enabled := rfl
  thrown := by decide

/-- The grenade is booked on the pistol or on the knife. -/
theorem throw_booked_on_held : ∃ t₁ t₂,
    (duelThrow.call (some pistol)).exec CStats.initial = .ok t₁ ∧
    (duelThrow.call (some knife)).exec CStats.initial = .ok t₂ ∧
      ¬ ∀ j, (t₁.data j).weaponStats = (t₂.data j).weaponStats := by
  obtain ⟨t₁, h₁⟩ : ∃ t, (duelThrow.call (some pistol)).exec CStats.initial = .ok t := ⟨_, rfl⟩
  obtain ⟨t₂, h₂⟩ : ∃ t, (duelThrow.call (some knife)).exec CStats.initial = .ok t := ⟨_, rfl⟩
  refine ⟨t₁, t₂, h₁, h₂, fun htables => ?_⟩
  have hattacker : duelThrow.server.playerByIndexSafe duelThrow.pevAttacker = some duelT := rfl
  have hhits := congrFun (congrFun (htables 1) 17) .hit
  rw [Throw.weaponStats_exec hattacker h₁, Throw.weaponStats_exec hattacker h₂] at hhits
  revert hhits
  decide

/-- The grenade is booked on nothing, with a smoke grenade in the hand as with none. -/
theorem weaponStats_eq_iff_duel : ∃ t₁ t₂, (duelThrow.call none).exec CStats.initial = .ok t₁ ∧
    (duelThrow.call (some smokeGrenade)).exec CStats.initial = .ok t₂ ∧
      ((∀ j, (t₁.data j).weaponStats = (t₂.data j).weaponStats) ↔
        duelThrow.SameIndex none (some smokeGrenade)) := by
  obtain ⟨t₁, h₁⟩ : ∃ t, (duelThrow.call none).exec CStats.initial = .ok t := ⟨_, rfl⟩
  obtain ⟨t₂, h₂⟩ : ∃ t, (duelThrow.call (some smokeGrenade)).exec CStats.initial = .ok t :=
    ⟨_, rfl⟩
  exact ⟨t₁, t₂, h₁, h₂, weaponStats_eq_iff h₁ h₂⟩

end StatsX
