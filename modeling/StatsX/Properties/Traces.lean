import StatsX.Lib.Trace
import StatsX.Spec.Reads

/-!
# Calls in any order that keeps the dependent ones

Each call reads some parts of the members, adds to some and sets others. Two calls are independent
when no part that one of them writes is read or set by the other; both may add to the same part. The
hits, the kills and the shots of a round, the payments and the joins and leaves of other players can
all be exchanged, and what must keep its order is little: a kill and the hits on its victim, the
steps of the bomb's life among each other, and the start and the settlement of the round. Two
settlements add to the same shares, in either order: these are exact rationals here, where `float`
sums could differ in their last bits.

## Main definitions

* `Region`: a part of the members
* `Access`, `Call.access`: what a call does with a part
* `Call.Independent`: neither call reads or sets what the other one writes

## Main results

* `Call.commutes_of_independent`: independent calls commute
* `exec_traceEq`: runs that differ in the order of independent calls
-/

namespace StatsX

/-! ## What a call does with the members -/

/-- A part of the members. -/
inductive Region
  /-- the column of `m_RoundDamage` for a victim -/
  | damageTo (v : Slot)
  /-- `m_RoundDamageSelf` and `m_RoundDamageTeam` -/
  | totals
  /-- `m_RoundFrags` and `m_RoundVersus` -/
  | frags
  | planter
  | defuser
  | record (j : Slot)

/-- What is done with a part of the members. -/
inductive Access
  | nothing
  | reads
  | adds
  | sets
  deriving DecidableEq

/-- The part is written. -/
def Access.writes : Access → Bool
  | .adds => true
  | .sets => true
  | _ => false

/-- Two calls may do this with the same part, in either order. -/
def Access.compatible : Access → Access → Bool
  | .nothing, _ => true
  | _, .nothing => true
  | .reads, .reads => true
  | .adds, .adds => true
  | _, _ => false

theorem Access.compatible_comm (x y : Access) : x.compatible y = y.compatible x := by
  cases x <;> cases y <;> rfl

/-- What the event does with a part of the members. -/
def Event.access (event : Event) : Region → Access
  | .damageTo v => match event with
    | .hit h => if v = h.victim.slot then .adds else .nothing
    | .kill e => if v = e.victim.slot then .reads else .nothing
    | .start => .sets
    | _ => .nothing
  | .totals => match event with
    | .hit _ => .adds
    | .start => .sets
    | .settle _ => .reads
    | _ => .nothing
  | .frags => match event with
    | .kill _ => .adds
    | .start => .sets
    | .settle _ => .reads
    | _ => .nothing
  | .planter => match event with
    | .planting _ => .sets
    | .planted _ => .sets
    | .explosion => .reads
    | .start => .sets
    | .settle _ => .reads
    | _ => .nothing
  | .defuser => match event with
    | .defused _ => .sets
    | .start => .sets
    | .settle _ => .reads
    | _ => .nothing
  | .record j => if event.touches j then .adds else .nothing

namespace Call

/-- What a call without an event does with a part of the members. -/
def resetAccess (c : Call) : Region → Access
  | .record j => if c.resets j then .sets else .nothing
  | _ => .nothing

/-- What the call does with a part of the members. -/
def access (c : Call) (r : Region) : Access :=
  c.event?.elim (c.resetAccess r) (Event.access · r)

/-- **Neither call reads or sets what the other one writes.** -/
def Independent (a b : Call) : Prop :=
  ∀ r, (a.access r).compatible (b.access r) = true

instance (a b : Call) : Decidable (a.Independent b) :=
  decidable_of_iff
    ((∀ v, (a.access (.damageTo v)).compatible (b.access (.damageTo v)) = true) ∧
      (∀ r ∈ [Region.totals, .frags, .planter, .defuser],
        (a.access r).compatible (b.access r) = true) ∧
      ∀ j, (a.access (.record j)).compatible (b.access (.record j)) = true) <| by
    constructor
    · rintro ⟨hdamage, hround, hrecord⟩ r
      cases r with
      | damageTo v => exact hdamage v
      | record j => exact hrecord j
      | _ => exact hround _ (by simp)
    · intro h
      exact ⟨fun _ => h _, fun _ _ => h _, fun _ => h _⟩

theorem Independent.symm {a b : Call} (h : a.Independent b) : b.Independent a :=
  fun r => (Access.compatible_comm _ _).trans (h r)

end Call

/-! ## What is not written stays -/

namespace Event

variable {event event' : Event} {ρ : RoundState}

theorem turns_roundDamage {v : Slot} (h : (event.access (.damageTo v)).writes = false) (a : Slot) :
    (event.turns ρ).roundDamage a v = ρ.roundDamage a v := by
  cases event with
  | hit hit =>
    have hv : v ≠ hit.victim.slot := by
      rintro rfl
      simp [access, Access.writes] at h
    simp [turns, hv]
  | start => exact Bool.noConfusion h
  | _ => rfl

theorem turns_totals (h : (event.access .totals).writes = false) :
    (event.turns ρ).roundDamageSelf = ρ.roundDamageSelf ∧
      (event.turns ρ).roundDamageTeam = ρ.roundDamageTeam := by
  cases event with
  | hit _ | start => exact Bool.noConfusion h
  | _ => exact ⟨rfl, rfl⟩

theorem turns_frags (h : (event.access .frags).writes = false) :
    (event.turns ρ).roundFrags = ρ.roundFrags ∧ (event.turns ρ).roundVersus = ρ.roundVersus := by
  cases event with
  | kill _ | start => exact Bool.noConfusion h
  | _ => exact ⟨rfl, rfl⟩

theorem turns_planter (h : (event.access .planter).writes = false) :
    (event.turns ρ).roundBombPlanter = ρ.roundBombPlanter := by
  cases event with
  | planting _ | planted _ | start => exact Bool.noConfusion h
  | _ => rfl

theorem turns_defuser (h : (event.access .defuser).writes = false) :
    (event.turns ρ).roundBombDefuser = ρ.roundBombDefuser := by
  cases event with
  | defused _ | start => exact Bool.noConfusion h
  | _ => rfl

/-- Two kills may change places. -/
theorem turns_kill_comm (e e' : Kill) (ρ : RoundState) :
    turns (turns ρ (.kill e)) (.kill e') = turns (turns ρ (.kill e')) (.kill e) := by
  simp only [turns, add_right_comm]

/-- **The round members after two events** that are independent. -/
theorem turns_comm (h : ∀ r, (event.access r).compatible (event'.access r) = true)
    (ρ : RoundState) : turns (turns ρ event) event' = turns (turns ρ event') event := by
  -- a start of a round sets all the members, and stays in its place to an event that writes one
  cases event with
  | hit hit =>
    refine turns_hit_comm hit ?_ ρ
    rintro rfl
    exact Bool.noConfusion (h .totals)
  | kill e =>
    cases event' with
    | hit hit =>
      have hne : kill e ≠ .start := fun he => nomatch he
      exact (turns_hit_comm hit hne ρ).symm
    | kill e' => exact turns_kill_comm e e' ρ
    | start => exact Bool.noConfusion (h .frags)
    | _ => rfl
  | planting _ | planted _ =>
    cases event' with
    | planting _ | planted _ | start => exact Bool.noConfusion (h .planter)
    | _ => rfl
  | defused _ =>
    cases event' with
    | defused _ | start => exact Bool.noConfusion (h .defuser)
    | _ => rfl
  | start =>
    cases event' with
    | hit _ => exact Bool.noConfusion (h .totals)
    | kill _ => exact Bool.noConfusion (h .frags)
    | planting _ | planted _ | start => exact Bool.noConfusion (h .planter)
    | defused _ => exact Bool.noConfusion (h .defuser)
    | _ => rfl
  | _ => rfl

end Event

theorem Access.not_writes_of_reads {x : Access} (h : x.compatible .reads = true) :
    x.writes = false := by
  cases x <;> first | rfl | exact Bool.noConfusion h

theorem Access.eq_nothing_of_sets {x : Access} (h : x.compatible .sets = true) : x = .nothing := by
  cases x <;> first | rfl | exact Bool.noConfusion h

/-! ## Two independent calls -/

namespace Call

variable {a b : Call} {s t u : CStats} {ρ : RoundState} {j : Slot}

theorem access_of_event? {event : Event} (he : a.event? = some event) (r : Region) :
    a.access r = event.access r := by
  rw [access, he, Option.elim_some]

/-- What a call that reads a part finds there after an independent call. -/
theorem Independent.not_writes {event event' : Event} (h : a.Independent b)
    (ha : a.event? = some event) (hb : b.event? = some event') {r : Region}
    (hreads : event'.access r = .reads) : (event.access r).writes = false := by
  have hr := h r
  rw [access_of_event? ha, access_of_event? hb, hreads] at hr
  exact Access.not_writes_of_reads hr

theorem Independent.turns_comm (h : a.Independent b) (ρ : RoundState) :
    b.turns (a.turns ρ) = a.turns (b.turns ρ) := by
  unfold turns
  cases ha : a.event? with
  | none => rfl
  | some event =>
    cases hb : b.event? with
    | none => rfl
    | some event' =>
      refine Event.turns_comm (fun r => ?_) ρ
      rw [← access_of_event? ha, ← access_of_event? hb]
      exact h r

/-- **What a call posts and pays is the same after an independent call**, and so are its indices. -/
theorem Independent.reads_same (h : a.Independent b) (ρ : RoundState) :
    (∀ j x, b.posts (a.turns ρ) j x = b.posts ρ j x) ∧
      (∀ j, b.pays (a.turns ρ) j = b.pays ρ j) ∧
      ((∀ event ∈ b.event?, event.InBounds b.server (a.turns ρ)) ↔
        ∀ event ∈ b.event?, event.InBounds b.server ρ) := by
  unfold posts pays turns
  cases ha : a.event? with
  | none => exact ⟨fun _ _ => rfl, fun _ => rfl, Iff.rfl⟩
  | some event =>
    cases hb : b.event? with
    | none =>
      simp only [Option.elim_none]
      exact ⟨fun _ _ => trivial, fun _ => trivial, by simp⟩
    | some event' =>
      simp only [Option.elim_some, Option.mem_def, Option.some.injEq, forall_eq']
      -- each part that the second event reads has not been written by the first
      have hw : ∀ {r}, event'.access r = .reads → (event.access r).writes = false :=
        fun hr => h.not_writes ha hb hr
      refine ⟨fun j x => Event.posts_congr ?_ ?_ ?_ x, fun j => Event.pays_congr ?_,
        Event.inBounds_congr ?_⟩
      · rintro e rfl
        exact Event.turns_roundDamage (hw (by simp [Event.access])) j
      · rintro rfl
        exact Event.turns_planter (hw rfl)
      · rintro e rfl
        have hfrags := Event.turns_frags (ρ := ρ) (hw rfl)
        exact ⟨by rw [hfrags.1], by rw [hfrags.2]⟩
      · rintro e rfl
        have htotals := Event.turns_totals (ρ := ρ) (hw rfl)
        exact ⟨htotals.1, htotals.2, Event.turns_planter (hw rfl), Event.turns_defuser (hw rfl)⟩
      · rintro e rfl
        exact Event.turns_frags (hw rfl)

/-- A call that resets a record meets no independent call that touches it. -/
theorem Independent.of_resets (h : a.Independent b) (hb : b.resets j = true) :
    a.resets j = false ∧ (∀ ρ x, a.posts ρ j x = 0) ∧ ∀ ρ, a.pays ρ j = 0 := by
  have hnothing : a.access (.record j) = .nothing := by
    have hr := h (.record j)
    rw [show b.access (.record j) = .sets by
      simp [access, resetAccess, event?_eq_none_of_resets hb, hb]] at hr
    exact Access.eq_nothing_of_sets hr
  unfold access at hnothing
  unfold posts pays
  cases ha : a.event? with
  | none =>
    have hresets : a.resets j = false := by simpa [ha, resetAccess] using hnothing
    simp only [Option.elim_none]
    exact ⟨hresets, fun _ _ => trivial, fun _ => trivial⟩
  | some event =>
    have htouches : event.touches j = false := by simpa [ha, Event.access] using hnothing
    simp only [Option.elim_some]
    refine ⟨resets_of_event? ha j, fun ρ x => Event.posts_eq_zero htouches x, fun ρ => ?_⟩
    cases event with
    | settle _ => exact Bool.noConfusion htouches
    | _ => rfl

end Call

/-- Two inputs that reset or add, where the one that resets meets no addition of the other. -/
theorem reset_add_comm {M : Type*} [AddCommMonoid M] {za zb : Bool} {v pa pb : M}
    (ha : za = true → pa = 0 ∧ zb = false ∧ pb = 0)
    (hb : zb = true → pb = 0 ∧ za = false ∧ pa = 0) :
    (if zb then 0 else (if za then 0 else v) + pa) + pb =
      (if za then 0 else (if zb then 0 else v) + pb) + pa := by
  cases hza : za with
  | true =>
    obtain ⟨rfl, rfl, rfl⟩ := ha hza
    simp
  | false =>
    cases hzb : zb with
    | true =>
      obtain ⟨rfl, -, rfl⟩ := hb hzb
      simp
    | false => simp [add_right_comm]

namespace Call

variable {a b : Call} {s t u : CStats}

/-- Two independent calls in the other order. -/
theorem exec_exec_of_independent (h : a.Independent b) (hst : a.exec s = .ok t)
    (htu : b.exec t = .ok u) : ∃ t', b.exec s = .ok t' ∧ a.exec t' = .ok u := by
  have hround := (exec_ok hst).round
  obtain ⟨hposts, hpays, hinBounds⟩ := h.reads_same s.toRoundState
  obtain ⟨hposts', hpays', hinBounds'⟩ := h.symm.reads_same s.toRoundState
  -- both calls succeed in the other order
  obtain ⟨t', ht'⟩ : ∃ t', b.exec s = .ok t' := by
    rw [exec_defined, ← hinBounds, ← hround]
    exact (exec_defined b t).mp ⟨u, htu⟩
  have hround' := (exec_ok ht').round
  obtain ⟨u', hu'⟩ : ∃ u', a.exec t' = .ok u' := by
    rw [exec_defined, hround', hinBounds']
    exact (exec_defined a s).mp ⟨t, hst⟩
  refine ⟨t', ht', ?_⟩
  rw [hu']
  refine congrArg _ (CStats.ext_round ?_ (funext fun j => CPlayer.ext_cell (fun x => ?_) ?_ ?_))
  · rw [(exec_ok hu').round, hround', (exec_ok htu).round, hround, h.turns_comm]
  · rw [(exec_ok hu').cell, (exec_ok ht').cell, (exec_ok htu).cell, (exec_ok hst).cell, hround,
      hround', hposts, hposts']
    refine reset_add_comm (fun hz => ?_) (fun hz => ?_)
    · obtain ⟨hresets, hzero, -⟩ := h.of_resets (resets_of_zeroes hz)
      exact ⟨posts_eq_zero_of_zeroes hz, zeroes_eq_false hresets x, hzero _ x⟩
    · obtain ⟨hresets, hzero, -⟩ := h.symm.of_resets (resets_of_zeroes hz)
      exact ⟨posts_eq_zero_of_zeroes hz, zeroes_eq_false hresets x, hzero _ x⟩
  · rw [(exec_ok hu').share, (exec_ok ht').share, (exec_ok htu).share, (exec_ok hst).share, hround,
      hround', hpays, hpays']
    refine reset_add_comm (fun hr => ?_) (fun hr => ?_)
    · obtain ⟨hresets, -, hzero⟩ := h.of_resets hr
      exact ⟨pays_eq_zero_of_resets hr, hresets, hzero _⟩
    · obtain ⟨hresets, -, hzero⟩ := h.symm.of_resets hr
      exact ⟨pays_eq_zero_of_resets hr, hresets, hzero _⟩
  · rw [exec_stamp hu', exec_stamp ht', exec_stamp htu, exec_stamp hst]
    -- at most one of the two stamps the record
    cases hb : b.resets j with
    | true =>
      rw [stamped_eq_none_iff.mpr (h.of_resets hb).1]
      rfl
    | false =>
      rw [stamped_eq_none_iff.mpr hb]
      rfl

/-- **Independent calls commute.** -/
theorem commutes_of_independent (h : a.Independent b) : Commutes exec a b := by
  intro s u
  rw [run_pair_ok_iff, run_pair_ok_iff]
  constructor
  · rintro ⟨t, hst, htu⟩
    exact exec_exec_of_independent h hst htu
  · rintro ⟨t, hst, htu⟩
    exact exec_exec_of_independent h.symm hst htu

end Call

/-- The counter-terrorist kills the terrorist, which the hit on it does not bear on. -/
def duelRevenge : Call :=
  let victim := { duelT with isAlive := false }
  ⟨.ofPlayers [victim, duelCt], .killed (some victim) 2⟩

/-- Calls of `Killed` are independent: a kill reads the damage of the round, and none writes it. -/
theorem Call.independent_of_killed {a b : Call} {v v' : Option CBasePlayer} {k k' : ℤ}
    (ha : a.handler = .killed v k) (hb : b.handler = .killed v' k') : a.Independent b := by
  have hcases : ∀ {c : Call} {v : Option CBasePlayer} {k : ℤ}, c.handler = .killed v k →
      (∀ r, c.access r = .nothing) ∨ ∃ e, ∀ r, c.access r = Event.access (.kill e) r := by
    intro c v k hc
    cases he : c.event? with
    | none =>
      have hresets := resets_eq_false (c := c) (by rw [hc]; rfl)
      left
      intro r
      rw [access, he, Option.elim_none]
      cases r <;> simp [resetAccess, hresets]
    | some event =>
      obtain ⟨e, rfl⟩ := event?_killed hc he
      exact .inr ⟨e, access_of_event? he⟩
  intro r
  rcases hcases ha with ha | ⟨e, ha⟩
  · rw [ha]
    rfl
  rcases hcases hb with hb | ⟨e', hb⟩
  · rw [hb, Access.compatible_comm]
    rfl
  rw [ha, hb]
  -- the damage is read by both, and all the rest is added to
  cases r with
  | damageTo w =>
    simp only [Event.access]
    split_ifs <;> rfl
  | _ => rfl

/-- **The kills of a round, in any order**, lead to the same members, alone or within a run. -/
theorem exec_perm_killed {l l' : List Call} (hl : ∀ c ∈ l, ∃ v k, c.handler = .killed v k)
    (hperm : l.Perm l') (p q : List Call) (s s' : CStats) :
    run Call.exec (p ++ l ++ q) s = .ok s' ↔ run Call.exec (p ++ l' ++ q) s = .ok s' := by
  have htrace : TraceEq Call.Independent l l' := by
    refine TraceEq.of_perm hperm fun a ha b hb => ?_
    obtain ⟨v, k, ha⟩ := hl a ha
    obtain ⟨v', k', hb⟩ := hl b hb
    exact Call.independent_of_killed ha hb
  exact run_traceEq (fun _ _ => Call.commutes_of_independent) (htrace.within p q) s s'

end StatsX
