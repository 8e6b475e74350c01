import StatsX.Spec.Replay

/-!
# Records that are recorded in parts

No handler reads a record to decide what to do: the records are only written. They can therefore be
taken out at any time, emptied, and put together again later with what has been recorded since, and
nothing is lost. As the start of a round clears the round members, the rounds of a game can even be
recorded apart from each other, each by a plugin just loaded. The sums of shares that are put
together are sums of exact rationals.

## Main definitions

* `CStats.emptied`: the members with all the records zeroed
* `CStats.merge`: the members put together from the members before a part of the calls and what this
  part has recorded in zeroed records

## Main results

* `run_iff_merge`: a run, through zeroed records
* `reaches_iff_merge_rounds`: a game, through its rounds recorded apart
-/

namespace StatsX

namespace CStats

/-- The members with all the records zeroed. -/
def emptied (s : CStats) : CStats := { s with data := fun _ => CPlayer.zeroed }

/-- **The members after the calls `part`**, put together from the members `s` before them and the
members `t` in which they have been recorded, from zeroed records on. What `part` resets is not
taken from `s`. -/
def merge (s : CStats) (part : List Call) (t : CStats) : CStats :=
  { t.toRoundState with
    data := fun j => .ofCells
      (fun x => (if part.any (·.zeroes j x) then 0 else (s.data j).cell x) + (t.data j).cell x)
      ((if part.any (·.resets j) then 0 else (s.data j).roundWinShare) + (t.data j).roundWinShare)
      (if part.any (·.resets j) then (t.data j).stamp else (s.data j).stamp) }

variable (s t : CStats) (part : List Call) (j : Slot)

@[simp] theorem toRoundState_merge : (s.merge part t).toRoundState = t.toRoundState := rfl

@[simp] theorem cell_merge (x : Counter) : ((s.merge part t).data j).cell x =
    (if part.any (·.zeroes j x) then 0 else (s.data j).cell x) + (t.data j).cell x :=
  CPlayer.cell_ofCells _ _ _ x

@[simp] theorem roundWinShare_merge : ((s.merge part t).data j).roundWinShare =
    (if part.any (·.resets j) then 0 else (s.data j).roundWinShare) +
      (t.data j).roundWinShare := rfl

@[simp] theorem stamp_merge : ((s.merge part t).data j).stamp =
    if part.any (·.resets j) then (t.data j).stamp else (s.data j).stamp := rfl

/-- Before any call there is nothing to add. -/
theorem merge_nil : s.merge [] s.emptied = s := by
  refine ext_round rfl (funext fun j => CPlayer.ext_cell (fun x => ?_) ?_ rfl)
  · rw [cell_merge, emptied, CPlayer.cell_zeroed, add_zero]
    rfl
  · rw [roundWinShare_merge, emptied, CPlayer.roundWinShare_zeroed, add_zero]
    rfl

end CStats

/-! ## Through zeroed records -/

/-- An input that resets or adds, on the two parts of a sum. -/
theorem reset_add_assoc {M : Type*} [AddCommMonoid M] {keeps z : Bool} {v w p : M}
    (hz : z = true → p = 0) :
    (if z then 0 else (if keeps then 0 else v) + w) + p =
      (if keeps || z then 0 else v) + ((if z then 0 else w) + p) := by
  cases z with
  | true => simp [hz rfl]
  | false => simp [add_assoc]

/-- **One more call**, on the members put together and on the part. -/
theorem Call.exec_merge {s t t' : CStats} {part : List Call} {c : Call} (h : c.exec t = .ok t') :
    c.exec (s.merge part t) = .ok (s.merge (part ++ [c]) t') := by
  -- the call succeeds there as well, since it meets the same round
  obtain ⟨u, hu⟩ : ∃ u, c.exec (s.merge part t) = .ok u := by
    rw [exec_defined, CStats.toRoundState_merge]
    exact (exec_defined c t).mp ⟨t', h⟩
  rw [hu]
  refine congrArg _ (CStats.ext_round ?_ (funext fun j => CPlayer.ext_cell (fun x => ?_) ?_ ?_))
  · rw [(exec_ok hu).round, CStats.toRoundState_merge, CStats.toRoundState_merge, (exec_ok h).round]
  · rw [(exec_ok hu).cell, CStats.cell_merge, CStats.cell_merge, (exec_ok h).cell,
      CStats.toRoundState_merge, List.any_append, List.any_cons, List.any_nil, Bool.or_false]
    exact reset_add_assoc posts_eq_zero_of_zeroes
  · rw [(exec_ok hu).share, CStats.roundWinShare_merge, CStats.roundWinShare_merge,
      (exec_ok h).share, CStats.toRoundState_merge, List.any_append, List.any_cons, List.any_nil,
      Bool.or_false]
    exact reset_add_assoc pays_eq_zero_of_resets
  · rw [exec_stamp hu, CStats.stamp_merge, CStats.stamp_merge, exec_stamp h, List.any_append,
      List.any_cons, List.any_nil, Bool.or_false]
    cases hc : c.resets j with
    | true =>
      obtain ⟨st, hst⟩ := Option.isSome_iff_exists.mp ((isSome_stamped c j).trans hc)
      rw [hst, Bool.or_true]
      rfl
    | false =>
      rw [stamped_eq_none_iff.mpr hc, Bool.or_false]
      rfl

/-- What has been recorded from zeroed records on is put together with the members before. -/
theorem run_merge {s t : CStats} {part : List Call}
    (h : run Call.exec part s.emptied = .ok t) : run Call.exec part s = .ok (s.merge part t) := by
  induction part using List.reverseRecOn generalizing t with
  | nil =>
    obtain rfl := Except.ok.inj h
    rw [CStats.merge_nil]
    rfl
  | append_singleton part c ih =>
    obtain ⟨t₁, ht₁, hc⟩ := run_concat_ok_iff.mp h
    exact run_concat_ok_iff.mpr ⟨_, ih ht₁, Call.exec_merge hc⟩

/-- A run succeeds from zeroed records as well, since no index is computed from a record. -/
theorem exists_run_emptied {s s' : CStats} {part : List Call}
    (h : run Call.exec part s = .ok s') : ∃ t, run Call.exec part s.emptied = .ok t := by
  apply run_progress
  intro p c t hp ht
  obtain ⟨u', hu'⟩ := run_ok_of_prefix hp h
  obtain ⟨u, hu, hc⟩ := run_concat_ok_iff.mp hu'
  obtain rfl : u = s.merge p t := by
    rw [run_merge ht] at hu
    exact (Except.ok.inj hu).symm
  rw [Call.exec_defined, ← CStats.toRoundState_merge s t p]
  exact (Call.exec_defined c _).mp ⟨u', hc⟩

/-- **A run, through zeroed records**: it succeeds when the run from zeroed records does, and leads
to the members put together from those before it and those that this run leads to. -/
theorem run_iff_merge {s s' : CStats} {part : List Call} :
    run Call.exec part s = .ok s' ↔
      ∃ t, run Call.exec part s.emptied = .ok t ∧ s' = s.merge part t := by
  constructor
  · intro h
    obtain ⟨t, ht⟩ := exists_run_emptied h
    rw [run_merge ht] at h
    exact ⟨t, ht, (Except.ok.inj h).symm⟩
  · rintro ⟨t, ht, rfl⟩
    exact run_merge ht

/-! ## Through the rounds -/

/-- The calls start with the start of a round. -/
def IsRound (part : List Call) : Prop := ∃ b l, part = b :: l ∧ b.startsRound = true

/-- A round is recorded in zeroed records as by a plugin just loaded. -/
theorem run_emptied_of_isRound {part : List Call} (h : IsRound part) (s : CStats) :
    run Call.exec part s.emptied = run Call.exec part CStats.initial := by
  obtain ⟨b, l, rfl, hb⟩ := h
  rw [run_cons, run_cons, Call.exec_startsRound hb, Call.exec_startsRound hb]
  rfl

/-- The members put together from those of a first part and those of the rounds after it. -/
def CStats.mergeAll (s : CStats) (rounds : List (List Call × CStats)) : CStats :=
  rounds.foldl (fun s r => s.merge r.1 r.2) s

/-- The calls of a game up to the end of a round. -/
theorem reaches_append_isRound {first part : List Call} (hpart : IsRound part) {s : CStats} :
    Reaches (first ++ part) s ↔
      ∃ t₀ t, Reaches first t₀ ∧ Reaches part t ∧ s = t₀.merge part t := by
  unfold Reaches
  rw [run_append_ok_iff]
  constructor
  · rintro ⟨t₀, ht₀, h⟩
    obtain ⟨t, ht⟩ := exists_run_emptied h
    obtain rfl := Except.ok.inj ((run_merge ht).symm.trans h)
    rw [run_emptied_of_isRound hpart] at ht
    exact ⟨t₀, t, ht₀, ht, rfl⟩
  · rintro ⟨t₀, t, ht₀, ht, rfl⟩
    rw [← run_emptied_of_isRound hpart t₀] at ht
    exact ⟨t₀, ht₀, run_merge ht⟩

/-- **A game, through its rounds**: the calls succeed when the first part does and each of the
rounds after it does, all from the members as the plugin loads them; and they lead to the members
put together from these. -/
theorem reaches_iff_merge_rounds {first : List Call} {rounds : List (List Call)}
    (hrounds : ∀ part ∈ rounds, IsRound part) {s : CStats} :
    Reaches (first ++ rounds.flatten) s ↔ ∃ t₀ ts, Reaches first t₀ ∧
      List.Forall₂ Reaches rounds ts ∧ s = t₀.mergeAll (rounds.zip ts) := by
  -- the first round joins the calls before it
  induction rounds generalizing first with
  | nil =>
    rw [List.flatten_nil, List.append_nil]
    constructor
    · intro h
      exact ⟨s, [], h, .nil, rfl⟩
    · rintro ⟨t₀, ts, ht₀, -, rfl⟩
      exact ht₀
  | cons part rounds ih =>
    have hpart := hrounds part List.mem_cons_self
    rw [List.flatten_cons, ← List.append_assoc,
      ih fun r hr => hrounds r (List.mem_cons_of_mem part hr)]
    constructor
    · rintro ⟨t₁, ts, ht₁, hts, rfl⟩
      obtain ⟨t₀, t, ht₀, ht, rfl⟩ := (reaches_append_isRound hpart).mp ht₁
      exact ⟨t₀, t :: ts, ht₀, .cons ht hts, rfl⟩
    · rintro ⟨t₀, ts, ht₀, hts, rfl⟩
      cases hts with
      | @cons _ t _ ts ht hts =>
        exact ⟨t₀.merge part t, ts, (reaches_append_isRound hpart).mpr ⟨t₀, t, ht₀, ht, rfl⟩,
          hts, rfl⟩

/-- Two rounds in which the terrorist kills, after the counter-terrorist has joined. -/
theorem reaches_iff_merge_rounds_duel :
    let part := [.duel .roundFreezeEnd, duelHit, duelKill, duelEnd]
    ∃ t₀ t, Reaches [.duel (.getIntoGame duelCt)] t₀ ∧ Reaches part t ∧
      Reaches ([.duel (.getIntoGame duelCt)] ++ [part, part].flatten)
        ((t₀.merge part t).merge part t) := by
  intro part
  obtain ⟨t₀, ht₀⟩ : ∃ t₀, Reaches [.duel (.getIntoGame duelCt)] t₀ := ⟨_, rfl⟩
  obtain ⟨t, ht⟩ : ∃ t, Reaches part t := exists_reaches rfl
  have hpart : IsRound part := ⟨_, _, rfl, rfl⟩
  have hrounds : ∀ r ∈ [part, part], IsRound r := by
    intro r hr
    rcases List.mem_pair.mp hr with rfl | rfl
    · exact hpart
    · exact hpart
  exact ⟨t₀, t, ht₀, ht, (reaches_iff_merge_rounds hrounds).mpr
    ⟨t₀, [t, t], ht₀, .cons ht (.cons ht .nil), rfl⟩⟩

end StatsX
