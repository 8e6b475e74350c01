import Mathlib.Algebra.BigOperators.Group.Finset.Piecewise
import Mathlib.Tactic.Abel
import StatsX.Spec.Ledger

/-!
# Double entry

`Killed` and `TakeDamage` book on two sides: a kill for the killer and a death for the victim, a
damage for the attacker and the same damage for the victim. Over all the slots the two sides keep
their difference, whoever the two are, until a record is reset together with what it holds.

The integers of the records are 32-bit words, so that the balances are taken in words, which is
exact for every state. They are balances of integers as well where no addition wraps.

## Main definitions

* `Entry`: two integers that are booked together
* `Entry.balance`: the difference of the two sides over all the slots
* `Entry.erased`: what the records that a call resets contribute to the balance

## Main results

* `balance_of_run`: every call of a run keeps the balances, up to the records that it erases
-/

namespace StatsX

/-! ## Balances -/

/-- Two integers of the records that are booked together. -/
inductive Entry
  | kill
  | damage
  | weaponKill (w : Fin (maxWeapons + 1))

/-- The integer of the player who acts. -/
def Entry.credit : Entry → Counter
  | .kill => .frags
  | .damage => .damage
  | .weaponKill w => .weaponStats w .kill

/-- The integer of the player who suffers. -/
def Entry.debit : Entry → Counter
  | .kill => .deaths
  | .damage => .damageReceive
  | .weaponKill w => .weaponStats w .death

variable {M : Type*} [AddCommGroup M]

namespace Entry

variable (entry : Entry) (v : CInt → M)

/-- The difference of the two sides over all the slots, the integers read by `v`. -/
def balance (s : CStats) : M :=
  ∑ j, v ((s.data j).cell entry.credit) - ∑ j, v ((s.data j).cell entry.debit)

/-- What the records that the call resets contribute to the balance. -/
def erased (c : Call) (s : CStats) : M :=
  ∑ j with c.resets j, (v ((s.data j).cell entry.credit) - v ((s.data j).cell entry.debit))

/-- What is erased in a run. -/
def erasedIn : List Call → CStats → M
  | [], _ => 0
  | c :: calls, s =>
    entry.erased v c s + match c.exec s with
      | .ok t => erasedIn calls t
      | .error _ => 0

theorem erased_eq_zero {c : Call} (h : c.handler.isReset = false) (s : CStats) :
    entry.erased v c s = 0 := by
  simp [erased, Call.resets_eq_false h]

end Entry

/-! ## One call -/

namespace Entry

variable (entry : Entry) {v : CInt → M}

/-- **What a call books on the two sides is the same**, over all the slots. -/
theorem sum_posts (hzero : v 0 = 0) (c : Call) (ρ : RoundState) :
    ∑ j, v (c.posts ρ j entry.credit) = ∑ j, v (c.posts ρ j entry.debit) := by
  unfold Call.posts
  rcases c.event? with _ | e
  · rfl
  -- a hit and a kill book one amount in one slot on each side
  cases e with
  | hit h =>
    cases entry <;>
      simp only [Option.elim_some, Event.posts, credit, debit, Hit.posts, apply_ite v, hzero,
        Finset.sum_ite_eq', Finset.mem_univ]
  | kill e =>
    cases entry <;>
      simp only [Option.elim_some, Event.posts, credit, debit, Kill.posts, apply_ite v, hzero,
        ite_and, Finset.sum_ite_eq', Finset.mem_univ]
  | settle e =>
    refine Finset.sum_congr rfl fun j _ => congrArg v ?_
    simp only [Option.elim_some, Event.posts, Settlement.posts]
    cases c.server.playerAt j <;> cases entry <;> rfl
  | _ => cases entry <;> rfl

/-- An integer of a record after a call, where the call's addition to it is read exactly. -/
theorem cell_exec {c : Call} {s s' : CStats} (h : c.exec s = .ok s')
    (hadd : ∀ j x, c.zeroes j x = false → v ((s.data j).cell x + c.posts s.toRoundState j x) =
      v ((s.data j).cell x) + v (c.posts s.toRoundState j x)) (j : Slot) {x : Counter}
    (hx : x.survives = false) : v ((s'.data j).cell x) =
      (v ((s.data j).cell x) - if c.resets j then v ((s.data j).cell x) else 0) +
        v (c.posts s.toRoundState j x) := by
  rw [(Call.exec_ok h).cell, ← Call.zeroes_eq_resets hx]
  cases hz : c.zeroes j x with
  | true => simp [Call.posts_eq_zero_of_zeroes hz]
  | false => simp [hadd j x hz]

/-- **A call keeps the balance**, up to the records that it erases. -/
theorem balance_exec (hzero : v 0 = 0) {c : Call} {s s' : CStats} (h : c.exec s = .ok s')
    (hadd : ∀ j x, c.zeroes j x = false → v ((s.data j).cell x + c.posts s.toRoundState j x) =
      v ((s.data j).cell x) + v (c.posts s.toRoundState j x)) :
    entry.balance v s' = entry.balance v s - entry.erased v c s := by
  have hcredit : entry.credit.survives = false := by cases entry <;> rfl
  have hdebit : entry.debit.survives = false := by cases entry <;> rfl
  have hposts := entry.sum_posts hzero c s.toRoundState
  unfold balance erased
  simp only [cell_exec h hadd _ hcredit, cell_exec h hadd _ hdebit,
    Finset.sum_add_distrib, Finset.sum_sub_distrib, hposts, Finset.sum_filter]
  abel

end Entry

/-! ## Runs -/

/-- **Each call of a run keeps the balances**, up to the records that it erases, and so does the
run. The balances are those of the words, and of the integers where the call fits. -/
theorem balance_of_run {calls : List Call} {s s' : CStats}
    (h : run Call.exec calls s = .ok s') (entry : Entry) :
    (∀ p c t t', p ++ [c] <+: calls → run Call.exec p s = .ok t → c.exec t = .ok t' →
      (c.handler.isReset = false → entry.balance id t' = entry.balance id t) ∧
        entry.balance id t' = entry.balance id t - entry.erased id c t ∧
        (c.Fits t → entry.balance BitVec.toInt t' =
          entry.balance BitVec.toInt t - entry.erased BitVec.toInt c t)) ∧
      entry.balance id s' = entry.balance id s - entry.erasedIn id calls s := by
  have hstep : ∀ c (t t' : CStats), c.exec t = .ok t' →
      entry.balance id t' = entry.balance id t - entry.erased id c t :=
    fun c t t' ht => entry.balance_exec rfl ht fun _ _ _ => rfl
  constructor
  · intro p c t t' _ _ ht
    refine ⟨fun hreset => ?_, hstep c t t' ht, fun hfits => ?_⟩
    · rw [hstep c t t' ht, entry.erased_eq_zero id hreset, sub_zero]
    · exact entry.balance_exec BitVec.toInt_zero ht hfits
  · -- from the start of the run, as `erasedIn` is a recursion on the calls
    induction calls generalizing s with
    | nil =>
      obtain rfl := Except.ok.inj h
      exact (sub_zero _).symm
    | cons c calls ih =>
      obtain ⟨t, ht, hrun⟩ := bind_ok_iff.mp h
      rw [ih hrun, hstep c s t ht, Entry.erasedIn, ht, sub_sub]

/-- The terrorist of the duel hits, kills and leaves. -/
theorem balance_duel :
    ∃ s, run Call.exec [duelHit, duelKill, .duel (.disconnected duelT)] CStats.initial = .ok s ∧
      Entry.balance .kill id s = Entry.balance .kill id CStats.initial -
        Entry.erasedIn .kill id [duelHit, duelKill, .duel (.disconnected duelT)]
          CStats.initial := by
  obtain ⟨s, hs⟩ : ∃ s, Reaches [duelHit, duelKill, .duel (.disconnected duelT)] s :=
    exists_reaches rfl
  exact ⟨s, hs, (balance_of_run hs .kill).2⟩

end StatsX
