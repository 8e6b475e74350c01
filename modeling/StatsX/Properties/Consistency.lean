import Mathlib.Algebra.BigOperators.Ring.Finset
import Mathlib.Algebra.Order.BigOperators.Group.Finset
import StatsX.Properties.Counts

/-!
# The consistency of a record

A record counts the same events several times: in a total, by weapon, by kind of hack, by result.
Whatever one call adds to a record is consistent in this respect; consistency is a set of linear
equations and inequalities, so that what many calls add is consistent as well, and so is what a
reset leaves.

## Main definitions

* `Consistent f`: the breakdowns of `f` are consistent with its totals

## Main results

* `Consistent.add`: consistent books add up to consistent books
* `consistent_posts`: what a call adds to a record is consistent
* `consistent_of_reaches`: every record is consistent, in every run whose additions do not wrap
-/

namespace StatsX

open CStats

/-- The kills with the weapons of a kind. -/
def killsWith (f : Counter → ℤ) (kind : ℤ → Prop) [DecidablePred kind] : ℤ :=
  ∑ w : Fin (maxWeapons + 1) with kind w.val, f (.weaponStats w .kill)

/-- The weapons that count for `HACK_NOSCOP`. -/
abbrev HasScope (i : ℤ) : Prop :=
  i = weaponAwp ∨ i = weaponScout ∨ i = weaponG3sg1 ∨ i = weaponSg550

/-- The weapon ids that `isWeapon` does not report as weapons. -/
abbrev NoWeapon (i : ℤ) : Prop :=
  i = weaponNone ∨ i = weaponSmokegrenade ∨ i = weaponFlashbang

/-- **The breakdowns are consistent with the totals.** -/
structure Consistent (f : Counter → ℤ) : Prop where
  shots : f .shots = ∑ w, f (.weaponStats w .shot)
  hits : ∑ w, f (.weaponStats w .hit) ≤ f .hits
  damage : ∑ w, f (.weaponStats w .damage) ≤ f .damage
  frags : ∑ w, f (.weaponStats w .kill) ≤ f .frags
  deaths : ∑ w, f (.weaponStats w .death) ≤ f .deaths
  headshot : ∑ w, f (.weaponStats w .headshot) ≤ f .headshot
  headshot_le_frags : f .headshot ≤ f .frags
  headshot_le_kill : ∀ w, f (.weaponStats w .headshot) ≤ f (.weaponStats w .kill)
  onehit : f (.hackStats .onehit) ≤ killsWith f (· ≠ weaponAwp)
  noscop : f (.hackStats .noscop) ≤ killsWith f HasScope
  vision : f (.hackStats .vision) ≤ killsWith f (· ≠ weaponHegrenade)
  noWeapon : ∀ w g, NoWeapon w.val → f (.weaponStats w g) = 0
  knife : ∀ w, (w.val : ℤ) = weaponKnife → f (.weaponStats w .shot) = 0
  rounds : f (.rounds .play) =
    f (.rounds .winTr) + f (.rounds .loseTr) + f (.rounds .winCt) + f (.rounds .loseCt)
  killStreak : ∑ n, f (.killStreak n) ≤ f (.rounds .play)
  versus : ∑ n, f (.versus n) ≤ f (.rounds .winTr) + f (.rounds .winCt)

/-- The integers that no other integer of a record breaks down. -/
def Counter.countedOnce : Counter → Bool
  | .assists => true
  | .damageReceive => true
  | .hitBox _ => true
  | .hitBoxDamage _ => true
  | .bombStats _ => true
  | .money _ => true
  | _ => false

namespace Consistent

variable {f g : Counter → ℤ}

/-- A book of zeros is consistent, whatever it holds that is counted once only. -/
theorem of_eq_zero (h : ∀ x, ¬ x.countedOnce → f x = 0) : Consistent f := by
  constructor <;> simp [killsWith, h, Counter.countedOnce]

/-- **Consistent books add up to consistent books.** -/
theorem add (hf : Consistent f) (hg : Consistent g) : Consistent fun x => f x + g x where
  shots := by rw [hf.shots, hg.shots, Finset.sum_add_distrib]
  hits := by rw [Finset.sum_add_distrib]; exact add_le_add hf.hits hg.hits
  damage := by rw [Finset.sum_add_distrib]; exact add_le_add hf.damage hg.damage
  frags := by rw [Finset.sum_add_distrib]; exact add_le_add hf.frags hg.frags
  deaths := by rw [Finset.sum_add_distrib]; exact add_le_add hf.deaths hg.deaths
  headshot := by rw [Finset.sum_add_distrib]; exact add_le_add hf.headshot hg.headshot
  headshot_le_frags := add_le_add hf.headshot_le_frags hg.headshot_le_frags
  headshot_le_kill := fun w => add_le_add (hf.headshot_le_kill w) (hg.headshot_le_kill w)
  onehit := by
    rw [killsWith, Finset.sum_add_distrib]
    exact add_le_add hf.onehit hg.onehit
  noscop := by
    rw [killsWith, Finset.sum_add_distrib]
    exact add_le_add hf.noscop hg.noscop
  vision := by
    rw [killsWith, Finset.sum_add_distrib]
    exact add_le_add hf.vision hg.vision
  noWeapon := fun w k hw => by rw [hf.noWeapon w k hw, hg.noWeapon w k hw, add_zero]
  knife := fun w hw => by rw [hf.knife w hw, hg.knife w hw, add_zero]
  rounds := by rw [hf.rounds, hg.rounds]; omega
  killStreak := by rw [Finset.sum_add_distrib]; exact add_le_add hf.killStreak hg.killStreak
  versus := by
    rw [Finset.sum_add_distrib]
    have := hf.versus
    have := hg.versus
    omega

/-- What a call leaves of consistent books. -/
theorem kept (hf : Consistent f) (c : Call) (j : Slot) :
    Consistent fun x => if c.zeroes j x then 0 else f x := by
  cases hreset : c.resets j with
  | true =>
    apply of_eq_zero
    intro x hx
    have hsurvives : x.survives = false := by
      cases x with
      | hitBoxDamage i => exact absurd rfl hx
      | _ => rfl
    rw [Call.zeroes_eq_resets hsurvives, if_pos hreset]
  | false =>
    have hzeroes : ∀ x, c.zeroes j x = false := fun x =>
      Bool.eq_false_of_not_eq_true fun hx => by simp [Call.resets_of_zeroes hx] at hreset
    simpa only [hzeroes, Bool.false_eq_true, if_false] using hf

end Consistent

/-! ## What a call adds -/

theorem isWeapon_ne (p : CBasePlayer) (allowKnife : Bool) :
    isWeapon p allowKnife ≠ weaponSmokegrenade ∧ isWeapon p allowKnife ≠ weaponFlashbang := by
  unfold isWeapon
  split
  · decide
  · split_ifs with _ _ h _ <;> first | decide | exact h

theorem isWeapon_false_ne_knife (p : CBasePlayer) : isWeapon p false ≠ weaponKnife := by
  unfold isWeapon
  split
  · decide
  · split_ifs with _ _ _ h <;> first | decide | simpa using h

theorem not_isItem_of_noWeapon {w : Fin (maxWeapons + 1)} (hw : NoWeapon w.val) (p : CBasePlayer)
    (allowKnife : Bool) : ¬ IsItem w (isWeapon p allowKnife) := by
  rintro ⟨h₀, hitem⟩
  obtain ⟨hsmoke, hflash⟩ := isWeapon_ne p allowKnife
  rw [← hitem] at h₀ hsmoke hflash
  rcases hw with h | h | h
  · exact h₀ h
  · exact hsmoke h
  · exact hflash h

/-- Amounts booked on the weapon that `isWeapon` reports, over the weapons. -/
theorem sum_isItem {a : Prop} [Decidable a] {i : ℤ} (hi : ItemInBounds i) (d : ℤ) :
    (∑ w, if a ∧ IsItem w i then d else 0) = if a ∧ i ≠ 0 then d else 0 := by
  obtain ⟨w, hw⟩ := exists_index_ok_iff.mpr hi
  obtain rfl := index_ok_iff.mp hw
  simp only [IsItem, Int.natCast_inj, Fin.val_inj, ite_and, Finset.sum_ite_irrel,
    Finset.sum_ite_eq', Finset.mem_univ, if_true, Finset.sum_const_zero]

/-- The same, over the weapons of a kind. -/
theorem sum_isItem_kind {a : Prop} [Decidable a] (kind : ℤ → Prop) [DecidablePred kind] {i : ℤ}
    (hi : ItemInBounds i) (d : ℤ) :
    (∑ w : Fin (maxWeapons + 1) with kind w.val, if a ∧ IsItem w i then d else 0) =
      if (a ∧ kind i) ∧ i ≠ 0 then d else 0 := by
  rw [← sum_isItem hi, Finset.sum_filter]
  apply Finset.sum_congr rfl
  intro w _
  by_cases hw : (w.val : ℤ) = i
  · simp only [hw, IsItem, ite_and]
    split_ifs <;> rfl
  · simp [IsItem, hw]

theorem toInt_zero : (0 : CInt).toInt = 0 := rfl

theorem toInt_one : (1 : CInt).toInt = 1 := rfl

section

variable {j : Slot}

theorem consistent_hit {h : Hit} (hitem : ItemInBounds (isWeapon h.attacker true))
    (hpos : 0 ≤ h.amount.toInt) : Consistent fun x => (h.posts j x).toInt := by
  -- a hit is booked in the totals, and on a weapon if there is one
  constructor <;> simp only [Hit.posts, killsWith, apply_ite BitVec.toInt, toInt_zero,
    toInt_one, Finset.sum_const_zero, sum_isItem hitem, le_refl, add_zero, implies_true]
  case hits => split_ifs <;> simp_all
  case damage => split_ifs <;> simp_all
  case noWeapon =>
    intro w g hw
    cases g <;> simp [not_isItem_of_noWeapon hw]

theorem one_le_one {a b : Prop} [Decidable a] [Decidable b] (h : a → b) :
    (if a then (1 : ℤ) else 0) ≤ if b then 1 else 0 := by
  by_cases ha : a
  · simp [ha, h ha]
  · rw [if_neg ha]
    split_ifs <;> decide

theorem consistent_kill {e : Kill} {g : Server} {ρ : RoundState} (hitem : ItemInBounds e.item) :
    Consistent fun x => (e.posts g ρ j x).toInt := by
  constructor <;> simp only [Kill.posts, killsWith, apply_ite BitVec.toInt, toInt_zero,
    toInt_one, Finset.sum_const_zero, sum_isItem hitem, le_refl, add_zero, implies_true]
  case frags | deaths => exact one_le_one And.left
  case headshot_le_frags => exact one_le_one And.left
  case headshot_le_kill => exact fun w => one_le_one fun h => ⟨h.1, h.2.1⟩
  case headshot =>
    cases e.victim.headshotKilled with
    | true =>
      simp only [and_true, sum_isItem hitem]
      exact one_le_one And.left
    | false => simp
  case onehit =>
    rw [sum_isItem_kind (· ≠ weaponAwp) hitem]
    exact one_le_one fun h => ⟨⟨h.1, h.2.2.1⟩, h.2.1⟩
  case noscop =>
    rw [sum_isItem_kind HasScope hitem]
    exact one_le_one fun h => ⟨⟨h.1, h.2.2.1⟩, h.2.1⟩
  case vision =>
    rw [sum_isItem_kind (· ≠ weaponHegrenade) hitem]
    exact one_le_one fun h => ⟨⟨h.1, h.2.2.1⟩, h.2.1⟩
  case noWeapon =>
    intro w k hw
    cases k <;> simp [not_isItem_of_noWeapon hw]

/-- At most one entry of a table is under the index `i`. -/
theorem sum_index_le {n : ℕ} {a : Prop} [Decidable a] (i : ℤ) :
    (∑ k : Fin n, if a ∧ (k.val : ℤ) = i then (1 : ℤ) else 0) ≤ if a then 1 else 0 := by
  by_cases ha : a
  · simp only [ha, true_and, if_true, Finset.sum_boole]
    have hcard : ({k : Fin n | (k.val : ℤ) = i} : Finset (Fin n)).card ≤ 1 := by
      apply Finset.card_le_one.mpr
      intro k hk k' hk'
      simp only [Finset.mem_filter, Finset.mem_univ, true_and] at hk hk'
      exact Fin.ext (by omega)
    exact_mod_cast hcard
  · simp [ha]

theorem consistent_shot {player : CBasePlayer} {g : Server} {ρ : RoundState}
    (hitem : ItemInBounds (isWeapon player false)) (hne : isWeapon player false ≠ 0) :
    Consistent fun x => (Event.posts g ρ j (.shot player) x).toInt := by
  constructor <;> simp only [Event.posts, killsWith, apply_ite BitVec.toInt, toInt_zero,
    toInt_one, Finset.sum_const_zero, sum_isItem hitem, le_refl, add_zero, implies_true]
  case shots => simp [hne]
  case noWeapon =>
    intro w k hw
    cases k <;> simp [not_isItem_of_noWeapon hw]
  case knife =>
    intro w hw
    rw [if_neg]
    rintro ⟨-, -, hitem⟩
    exact isWeapon_false_ne_knife player (hitem.symm.trans hw)

theorem consistent_settle (e : Settlement) (ρ : RoundState) (temp : CBasePlayer) :
    Consistent fun x => (e.postsAt ρ j temp x).toInt := by
  constructor <;> simp only [Settlement.postsAt, killsWith, apply_ite BitVec.toInt, toInt_zero,
    toInt_one, Finset.sum_const_zero, le_refl, implies_true]
  case rounds =>
    -- the result is one of the four counters
    have hplay := e.play_ne_result temp.team
    cases hresult : e.result temp.team <;> simp_all
  case killStreak => exact (sum_index_le _).trans (by split_ifs <;> decide)
  case versus =>
    simp only [← and_assoc]
    refine (sum_index_le _).trans ?_
    by_cases hwins : temp.team = e.winner
    · -- the winner's result is one of the two counters of wins
      rw [Settlement.result, if_pos hwins]
      by_cases hteam : temp.team = .terrorist <;> simp only [hteam, if_true, if_false] <;>
        split_ifs <;> simp_all
    · simp only [hwins, false_and, if_false]
      split_ifs <;> decide

/-- A shot that is recorded is one with a weapon. -/
theorem isWeapon_ne_zero_of_shot {c : Call} {player : CBasePlayer}
    (he : c.event? = some (.shot player)) : isWeapon player false ≠ 0 := by
  obtain ⟨playerAnim, hhandler⟩ := Call.comesFrom_of_event? he
  rw [Call.event?, if_pos (Call.isEnabled_of_event? he), hhandler] at he
  simp only [Option.ite_none_right_eq_some] at he
  exact he.1.2

/-- **What a call adds to a record is consistent.** -/
theorem consistent_posts {c : Call} {s s' : CStats} (h : c.exec s = .ok s')
    (hpos : ∀ hit, c.event? = some (.hit hit) → 0 ≤ hit.amount.toInt) (j : Slot) :
    Consistent fun x => (c.posts s.toRoundState j x).toInt := by
  have hbounds := (c.exec_defined s).mp ⟨s', h⟩
  unfold Call.posts
  rcases he : c.event? with _ | e
  · exact .of_eq_zero fun _ _ => rfl
  cases e with
  | hit hit => exact consistent_hit (hbounds _ he).2 (hpos hit he)
  | kill e => exact consistent_kill (hbounds _ he)
  | shot player => exact consistent_shot (hbounds _ he) (isWeapon_ne_zero_of_shot he)
  | settle e =>
    simp only [Option.elim_some, Event.posts, Settlement.posts]
    rcases c.server.playerAt j with _ | temp
    · exact .of_eq_zero fun _ _ => rfl
    · exact consistent_settle e _ temp
  | _ =>
    -- payments and the bomb are counted once only
    refine .of_eq_zero fun x hx => ?_
    cases x <;> first | rfl | exact absurd rfl hx

end

/-! ## Runs -/

/-- The damage amounts of the calls are not negative. -/
def NonnegDamage (calls : List Call) : Prop :=
  ∀ c ∈ calls, ∀ hit, c.event? = some (.hit hit) → 0 ≤ hit.amount.toInt

/-- **Every record is consistent** in every state that a run reaches, when its damage amounts are
not negative and its additions do not wrap. -/
theorem consistent_of_reaches {calls : List Call} {s : CStats} (h : Reaches calls s)
    (hpos : NonnegDamage calls) (hfits : FitsAll calls) (j : Slot) :
    Consistent (s.data j).value := by
  refine run_induction (P := fun _ s => Consistent (s.data j).value) ?_ ?_ h
  · exact .of_eq_zero fun x _ => by rw [CPlayer.value, CStats.initial, CPlayer.cell_zeroed]; rfl
  intro p c t t' hp ht ih hc
  have hmem : c ∈ calls := hp.subset (by simp)
  have hposts := consistent_posts hc (hpos c hmem) j
  -- what the call leaves of the record, and what it adds to it
  have hvalue : (t'.data j).value = fun x => (if c.zeroes j x then 0 else (t.data j).value x) +
      (c.posts t.toRoundState j x).toInt := funext fun x => (hfits p c t hp ht).value_exec hc j x
  rw [hvalue]
  exact (ih.kept c j).add hposts

/-- The terrorist of the duel, with a pistol. -/
def armedT : CBasePlayer := { duelT with activeItem := some ⟨true, pistolSlot, 17⟩ }

/-- The terrorist shoots, hits, kills by a headshot and wins. -/
def armedDuel : List Call :=
  let victim := { duelCt with isAlive := false, headshotKilled := true }
  [⟨.ofPlayers [armedT, duelCt], .setAnimation (some armedT) .attack1⟩,
    ⟨.ofPlayers [armedT, duelCt], .takeDamage (some duelCt) none (some 1)⟩,
    ⟨.ofPlayers [armedT, victim], .killed (some victim) 1⟩,
    ⟨.ofPlayers [armedT, victim], .roundEnd winstatusTerrorists .terroristsWin⟩]

theorem nonnegDamage_armedDuel : NonnegDamage armedDuel := by
  intro c hc hit hhit
  simp only [armedDuel, List.mem_cons, List.not_mem_nil, or_false] at hc
  rcases hc with rfl | rfl | rfl | rfl
  · cases hhit
  · cases hhit
    decide
  · cases hhit
  · cases hhit

/-- The records after the shot, the hit and the kill, all with the pistol. -/
theorem consistent_duel : ∃ s, Reaches armedDuel s ∧
    ((s.data 1).value (.weaponStats 17 .shot) = 1 ∧ (s.data 1).value (.weaponStats 17 .hit) = 1 ∧
      (s.data 1).value (.weaponStats 17 .headshot) = 1 ∧ (s.data 1).value (.killStreak 1) = 1) ∧
      ∀ j, Consistent (s.data j).value := by
  obtain ⟨s, hs, hvalues⟩ : ∃ s, Reaches armedDuel s ∧
      ((s.data 1).value (.weaponStats 17 .shot) = 1 ∧ (s.data 1).value (.weaponStats 17 .hit) = 1 ∧
        (s.data 1).value (.weaponStats 17 .headshot) = 1 ∧
          (s.data 1).value (.killStreak 1) = 1) := exists_reaches_and (by decide +kernel)
  exact ⟨s, hs, hvalues, consistent_of_reaches hs nonnegDamage_armedDuel
    (fitsAll_of_magnitude (by decide +kernel))⟩

end StatsX
