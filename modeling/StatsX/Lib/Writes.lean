import StatsX.Lib.Bounded

/-!
# What a computation writes to a log

A computation on a state with a log may extend the log and do nothing else to it. What it has
written is judged entry by entry, and judged for a whole computation by judging its parts.

## Main definitions

* `Writes out Q m`: `m` extends the log `out`, by entries with the property `Q`

## Main results

* `Writes.bind`, `Writes.ite`, `Writes.forM`: computations in sequence, behind a test, and in a loop
-/

namespace StatsX

variable {σ β ε α γ : Type} {out : σ → List β} {Q : β → Prop}

variable (out Q) in
/-- **The computation extends the log**, by entries with the property `Q`. -/
def Writes (m : StateT σ (Except ε) α) : Prop :=
  ∀ s a s', m.run s = .ok (a, s') → ∃ new, out s' = out s ++ new ∧ ∀ x ∈ new, Q x

namespace Writes

variable {m : StateT σ (Except ε) α}

theorem pure (a : α) : Writes out Q (Pure.pure a : StateT σ (Except ε) α) := by
  intro s a' s' h
  obtain ⟨-, rfl⟩ := Prod.mk.inj (Except.ok.inj h)
  exact ⟨[], by simp, by simp⟩

theorem throw (e : ε) : Writes out Q (MonadExcept.throw e : StateT σ (Except ε) α) := by
  intro s a s' h
  cases h

theorem bind {n : α → StateT σ (Except ε) γ} (hm : Writes out Q m)
    (hn : ∀ a, Writes out Q (n a)) : Writes out Q (m >>= n) := by
  intro s c s' h
  rw [StateT.run_bind, bind_ok_iff] at h
  obtain ⟨⟨a, t⟩, ht, h⟩ := h
  obtain ⟨new, hnew, hQ⟩ := hm s a t ht
  obtain ⟨new', hnew', hQ'⟩ := hn a t c s' h
  refine ⟨new ++ new', by rw [hnew', hnew, List.append_assoc], ?_⟩
  intro x hx
  rcases List.mem_append.mp hx with hx | hx
  · exact hQ x hx
  · exact hQ' x hx

theorem get : Writes out Q (MonadState.get : StateT σ (Except ε) σ) := by
  intro s a s' h
  obtain ⟨-, rfl⟩ := Prod.mk.inj (Except.ok.inj h)
  exact ⟨[], by simp, by simp⟩

/-- A statement that writes one entry. -/
theorem append {f : σ → σ} {x : β} (hf : ∀ s, out (f s) = out s ++ [x]) (hx : Q x) :
    Writes out Q (modify f : StateT σ (Except ε) PUnit) := by
  intro s a s' h
  obtain ⟨-, rfl⟩ := Prod.mk.inj (Except.ok.inj h)
  exact ⟨[x], hf s, by simpa using hx⟩

/-- A statement on the rest of the state. -/
theorem modify {f : σ → σ} (hf : ∀ s, out (f s) = out s) :
    Writes out Q (modify f : StateT σ (Except ε) PUnit) := by
  intro s a s' h
  obtain ⟨-, rfl⟩ := Prod.mk.inj (Except.ok.inj h)
  exact ⟨[], by simp [hf], by simp⟩

theorem ite {c : Prop} [Decidable c] {n : StateT σ (Except ε) α} (hm : c → Writes out Q m)
    (hn : ¬ c → Writes out Q n) : Writes out Q (if c then m else n) := by
  split_ifs with h
  · exact hm h
  · exact hn h

theorem forM {f : γ → StateT σ (Except ε) PUnit} (hf : ∀ c, Writes out Q (f c)) (l : List γ) :
    Writes out Q (l.forM f) := by
  induction l with
  | nil => exact Writes.pure _
  | cons c l ih => exact (hf c).bind fun _ => ih

end Writes

end StatsX
