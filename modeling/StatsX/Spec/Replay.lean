import StatsX.Lib.History
import StatsX.Spec.Ledger

/-!
# The members as a function of the history

All the members, not the round members alone, are a function of the calls: every integer of a
record is the sum of what the calls since its last reset posted, each at the round it met; the
share of a record is a sum in the same way, of exact rationals; and the rest of a record is what
the last call that reset it has stamped it with.

## Main definitions

* `Call.stamped`: what a call stamps a record with, if it resets it
* `CPlayer.ofCalls`, `CStats.ofCalls`: the records and the members that a history describes

## Main results

* `Call.exec_stamp`: the stamps after a call
* `exec_ofCalls`: a call takes the members of a history to the members of the longer history
-/

namespace StatsX

/-! ## Stamps -/

namespace Call

/-- What the call stamps the record `j` with, if it resets it. -/
def stamped (c : Call) (j : Slot) : Option (CArray UInt8 35 × ℚ × ℚ) :=
  match c.handler with
  | .serverActivate => some CPlayer.zeroed.stamp
  | .serverDeactivate => some CPlayer.zeroed.stamp
  | .getIntoGame player =>
    if j = player.slot then
      player.edict.map fun edict => (CPlayer.strncpy 35 edict.netname, c.server.time, 0)
    else none
  | .disconnected player => if j = player.slot then some (fun _ => 0, c.server.time, 0) else none
  | _ => none

variable {c : Call} {s s' : CStats}

/-- A call stamps the records that it resets. -/
theorem isSome_stamped (c : Call) (j : Slot) : (c.stamped j).isSome = c.resets j := by
  obtain ⟨g, handler⟩ := c
  cases handler with
  | getIntoGame player =>
    by_cases hj : j = player.slot <;> simp [stamped, resets, hj]
  | disconnected player =>
    by_cases hj : j = player.slot <;> simp [stamped, resets, hj]
  | _ => rfl

theorem stamped_eq_none_iff {j : Slot} : c.stamped j = none ↔ c.resets j = false := by
  rw [← isSome_stamped, Option.isSome_eq_false_iff, Option.isNone_iff_eq_none]

/-- The stamps after a reset of the record `k` alone. -/
theorem stamp_update (data : Slot → CPlayer) (k : Slot) (r : CPlayer) (j : Slot) :
    (Function.update data k r j).stamp =
      (if j = k then some r.stamp else none).getD (data j).stamp := by
  rw [Function.update_apply]
  by_cases hj : j = k <;> simp [hj]

/-- **The stamps after a call.** -/
theorem exec_stamp (h : c.exec s = .ok s') (j : Slot) :
    (s'.data j).stamp = (c.stamped j).getD (s.data j).stamp := by
  by_cases hreset : c.handler.isReset = true
  · obtain ⟨g, handler⟩ := c
    cases handler with
    | serverActivate | serverDeactivate =>
      obtain rfl := Except.ok.inj h
      rfl
    | getIntoGame player =>
      rcases hedict : player.edict with _ | edict
      · -- a player without an edict changes nothing
        simp only [exec, Handler.body, CStats.getIntoGame, hedict] at h
        obtain rfl := Except.ok.inj h
        simp [stamped, hedict]
      · simp only [exec, Handler.body, CStats.getIntoGame, hedict,
          CBasePlayer.index_entindex] at h
        obtain rfl := Except.ok.inj h
        simp only [stamped, hedict, Option.map_some]
        exact stamp_update s.data player.slot _ j
    | disconnected player =>
      simp only [exec, Handler.body, CStats.disconnected, CBasePlayer.index_entindex] at h
      obtain rfl := Except.ok.inj h
      exact stamp_update s.data player.slot _ j
    | _ => exact Bool.noConfusion hreset
  · have hresets := resets_eq_false (Bool.eq_false_of_not_eq_true hreset)
    rw [stamped_eq_none_iff.mpr (hresets j), Option.getD_none]
    exact (exec_ok h).stamp hresets j

theorem zeroes_eq_false {j : Slot} (h : c.resets j = false) (x : Counter) :
    c.zeroes j x = false := by
  refine Bool.eq_false_of_not_eq_true fun hz => ?_
  rw [resets_of_zeroes hz] at h
  exact Bool.noConfusion h

theorem pays_eq_zero_of_resets {ρ : RoundState} {j : Slot} (h : c.resets j = true) :
    c.pays ρ j = 0 := by
  rw [pays, event?_eq_none_of_resets h, Option.elim_none]

end Call

/-! ## Records -/

namespace CPlayer

/-- The record with the given integers, share and stamp. -/
def ofCells (cell : Counter → CInt) (share : WithTop ℚ) (stamp : CArray UInt8 35 × ℚ × ℚ) :
    CPlayer where
  index := stamp.1
  frags := cell .frags
  assists := cell .assists
  deaths := cell .deaths
  headshot := cell .headshot
  shots := cell .shots
  hits := cell .hits
  damage := cell .damage
  damageReceive := cell .damageReceive
  joinTime := stamp.2.1
  gameTime := stamp.2.2
  rounds := fun g => cell (.rounds g)
  roundWinShare := share
  bombStats := fun g => cell (.bombStats g)
  hitBox := fun i => cell (.hitBox i)
  hitBoxDamage := fun i => cell (.hitBoxDamage i)
  weaponStats := fun w g => cell (.weaponStats w g)
  killStreak := fun n => cell (.killStreak n)
  versus := fun n => cell (.versus n)
  money := fun t => cell (.money t)
  hackStats := fun g => cell (.hackStats g)

variable (cell : Counter → CInt) (share : WithTop ℚ) (stamp : CArray UInt8 35 × ℚ × ℚ)

@[simp] theorem cell_ofCells (x : Counter) : (ofCells cell share stamp).cell x = cell x := by
  cases x <;> rfl

@[simp] theorem roundWinShare_ofCells : (ofCells cell share stamp).roundWinShare = share := rfl

@[simp] theorem stamp_ofCells : (ofCells cell share stamp).stamp = stamp := rfl

end CPlayer

/-! ## Histories -/

/-- What the calls have posted to the integer `x` of the record `j` since its last reset, each at
the round it met. -/
def posted (calls : List Call) (j : Slot) (x : Counter) : CInt :=
  gained (Call.zeroes · j x) (fun p c => c.posts (.ofCalls (thisRound p)) j x) calls

/-- What the calls have paid to the record `j` since its last reset. -/
def paid (calls : List Call) (j : Slot) : WithTop ℚ :=
  gained (Call.resets · j) (fun p c => c.pays (.ofCalls (thisRound p)) j) calls

/-- What the calls have stamped the record `j` with. -/
def stampOf (calls : List Call) (j : Slot) : CArray UInt8 35 × ℚ × ℚ :=
  (latest (Call.stamped · j) calls).getD CPlayer.zeroed.stamp

/-- **The record `j` that a history describes.** -/
def CPlayer.ofCalls (calls : List Call) (j : Slot) : CPlayer :=
  .ofCells (posted calls j) (paid calls j) (stampOf calls j)

/-- **The members that a history describes.** -/
def CStats.ofCalls (calls : List Call) : CStats :=
  { RoundState.ofCalls (thisRound calls) with data := CPlayer.ofCalls calls }

theorem posted_concat (l : List Call) (c : Call) (j : Slot) (x : Counter) :
    posted (l ++ [c]) j x =
      (if c.zeroes j x then 0 else posted l j x) + c.posts (.ofCalls (thisRound l)) j x :=
  gained_concat Call.posts_eq_zero_of_zeroes

theorem paid_concat (l : List Call) (c : Call) (j : Slot) :
    paid (l ++ [c]) j =
      (if c.resets j then 0 else paid l j) + c.pays (.ofCalls (thisRound l)) j :=
  gained_concat Call.pays_eq_zero_of_resets

theorem stampOf_concat (l : List Call) (c : Call) (j : Slot) :
    stampOf (l ++ [c]) j = (c.stamped j).getD (stampOf l j) := by
  rw [stampOf, latest_concat, stampOf]
  cases c.stamped j <;> rfl

@[simp] theorem CStats.ofCalls_nil : CStats.ofCalls [] = .initial := by
  refine CStats.ext_round rfl (funext fun j => CPlayer.ext_cell (fun x => ?_) rfl rfl)
  show (CPlayer.ofCalls [] j).cell x = CPlayer.zeroed.cell x
  rw [CPlayer.ofCalls, CPlayer.cell_ofCells, CPlayer.cell_zeroed]
  rfl

/-- **A call takes the members of a history** to the members of the longer history. -/
theorem exec_ofCalls {l : List Call} {c : Call} {s : CStats} (h : c.exec (.ofCalls l) = .ok s) :
    s = .ofCalls (l ++ [c]) := by
  have hout := Call.exec_ok h
  refine CStats.ext_round ?_ (funext fun j => CPlayer.ext_cell (fun x => ?_) ?_ ?_)
  · rw [hout.round]
    exact turns_ofCalls l c
  · show (s.data j).cell x = (CPlayer.ofCalls (l ++ [c]) j).cell x
    rw [hout.cell, CPlayer.ofCalls, CPlayer.cell_ofCells, posted_concat]
    show _ + _ = (if c.zeroes j x then 0 else posted l j x) + _
    rw [← CPlayer.cell_ofCells (posted l j) (paid l j) (stampOf l j) x]
    rfl
  · rw [hout.share]
    exact (paid_concat l c j).symm
  · rw [Call.exec_stamp h]
    exact (stampOf_concat l c j).symm

/-- The members after a run are those that its calls describe. -/
theorem eq_ofCalls_of_reaches {calls : List Call} {s : CStats} (h : Reaches calls s) :
    s = .ofCalls calls := by
  refine run_induction (P := fun l s => s = .ofCalls l) CStats.ofCalls_nil.symm ?_ h
  rintro l c t t' - - rfl ht
  exact exec_ofCalls ht

end StatsX
