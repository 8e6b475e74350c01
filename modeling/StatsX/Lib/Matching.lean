import Mathlib.Data.List.Perm.Subperm
import StatsX.Lib.Since

/-!
# Openings and closings

Some entries of a log open something and others close it, and a mark on the entries says which
opening a closing is for. What has been opened and closed is counted from the last reset on. Where
each closing is for an opening after the last reset, and no mark is closed twice, no more is closed
than opened.

Whether an entry counts may depend on the entries before it.

## Main definitions

* `marks reset mark counts l`: the marks that count in `l` since the last reset

## Main results

* `marks_concat`: one more entry
* `length_marks_le`: no more is closed than opened
-/

namespace StatsX

variable {α β : Type*}

/-- The marks that count in `l`, after the entries `past` and with the marks `kept` from them. -/
def marksFrom (reset : α → Bool) (mark : α → β) (counts : List α → α → Bool) :
    List α → List β → List α → List β
  | _, kept, [] => kept
  | past, kept, a :: l =>
    let new := if counts past a then [mark a] else []
    marksFrom reset mark counts (past ++ [a]) ((if reset a then [] else kept) ++ new) l

/-- The marks that count in `l` since the last reset. -/
def marks (reset : α → Bool) (mark : α → β) (counts : List α → α → Bool) (l : List α) : List β :=
  marksFrom reset mark counts [] [] l

variable {reset : α → Bool} {mark : α → β} {counts counts' : List α → α → Bool} {l : List α}

theorem marksFrom_concat (past : List α) (kept : List β) (a : α) :
    marksFrom reset mark counts past kept (l ++ [a]) =
      (if reset a then [] else marksFrom reset mark counts past kept l) ++
        if counts (past ++ l) a then [mark a] else [] := by
  induction l generalizing past kept with
  | nil => simp [marksFrom]
  | cons b l ih => simp [marksFrom, ih]

@[simp] theorem marks_nil : marks reset mark counts [] = [] := rfl

/-- **One more entry** drops the marks so far or keeps them, and may add its own. -/
theorem marks_concat (a : α) : marks reset mark counts (l ++ [a]) =
    (if reset a then [] else marks reset mark counts l) ++ if counts l a then [mark a] else [] :=
  marksFrom_concat [] [] a

/-- The marks that count are marks of entries of a kind, in their order. -/
theorem marks_sublist {kind : α → Bool} (h : ∀ p a, counts p a = true → kind a = true) :
    (marks reset mark counts l).Sublist ((l.filter kind).map mark) := by
  induction l using List.reverseRecOn with
  | nil => exact List.nil_sublist _
  | append_singleton l a ih =>
    rw [marks_concat, List.filter_append, List.map_append]
    apply List.Sublist.append
    · split_ifs
      · exact List.nil_sublist _
      · exact ih
    · split_ifs with hcounts
      · simp [h l a hcounts]
      · exact List.nil_sublist _

/-- The marks that count, where the past does not matter. -/
theorem marks_eq_since {counts : α → Bool} (h : ∀ a, reset a = true → counts a = false) :
    marks reset mark (fun _ => counts) l = ((since reset l).filter counts).map mark := by
  induction l using List.reverseRecOn with
  | nil => rfl
  | append_singleton l a ih =>
    rw [marks_concat, since_concat, ih]
    cases hreset : reset a with
    | true => simp [h a hreset]
    | false => cases hcounts : counts a <;> simp [hcounts]

theorem marks_subset
    (h : ∀ p a, p ++ [a] <+: l → counts p a = true →
      reset a = false ∧ mark a ∈ marks reset mark counts' p) :
    marks reset mark counts l ⊆ marks reset mark counts' l := by
  -- from the end of the log: what is closed by its last entry was open before it
  induction l using List.reverseRecOn with
  | nil => exact List.Subset.refl _
  | append_singleton l a ih =>
    have hl := ih fun p b hp => h p b (hp.trans (List.prefix_append l [a]))
    rw [marks_concat, marks_concat]
    intro m hm
    rcases List.mem_append.mp hm with hold | hnew
    · apply List.mem_append_left
      split_ifs at hold ⊢
      · exact hold
      · exact hl hold
    · split_ifs at hnew with hcounts
      · obtain ⟨hreset, hopen⟩ := h l a (List.prefix_refl _) hcounts
        obtain rfl := List.mem_singleton.mp hnew
        exact List.mem_append_left _ (by simpa [hreset] using hopen)
      · exact absurd hnew List.not_mem_nil

/-- **No more is closed than opened**, where each closing is for an opening since the last reset and
no mark is closed twice. -/
theorem length_marks_le (kind : α → Bool) (hkind : ∀ p a, counts p a = true → kind a = true)
    (hdistinct : ((l.filter kind).map mark).Nodup)
    (h : ∀ p a, p ++ [a] <+: l → counts p a = true →
      reset a = false ∧ mark a ∈ marks reset mark counts' p) :
    (marks reset mark counts l).length ≤ (marks reset mark counts' l).length := by
  have hnodup : (marks reset mark counts l).Nodup := hdistinct.sublist (marks_sublist hkind)
  exact (hnodup.subperm (marks_subset h)).length_le

end StatsX
