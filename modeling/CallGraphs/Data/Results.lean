/-!
# Results that may be errors

How a computation that gave a result came to it, step by step.
-/

namespace CallGraphs

variable {α β ε : Type}

/-- Two steps give a result when the first one does and the second one does from there. -/
theorem bind_eq_ok {x : Except ε α} {f : α → Except ε β} {b : β} :
    x >>= f = .ok b ↔ ∃ a, x = .ok a ∧ f a = .ok b := by
  cases x with
  | ok a => simp [bind, Except.bind]
  | error e => simp [bind, Except.bind]

/-- What stands in a list of results is the result of some element. -/
theorem mem_of_mapM {f : α → Except ε β} {l : List α} {results : List β}
    (h : l.mapM f = .ok results) {b : β} : b ∈ results ↔ ∃ a ∈ l, f a = .ok b := by
  induction l generalizing results with
  | nil =>
    obtain rfl := Except.ok.inj h
    simp
  | cons a l ih =>
    rw [List.mapM_cons] at h
    obtain ⟨first, hfirst, h⟩ := bind_eq_ok.1 h
    obtain ⟨rest, hrest, h⟩ := bind_eq_ok.1 h
    obtain rfl := Except.ok.inj h
    rw [List.mem_cons, ih hrest]
    simp [hfirst, eq_comm]

/-- All elements have results exactly if each of them has one. -/
theorem exists_mapM_iff {f : α → Except ε β} {l : List α} :
    (∃ results, l.mapM f = .ok results) ↔ ∀ a ∈ l, ∃ b, f a = .ok b := by
  induction l with
  | nil => simp [pure, Except.pure]
  | cons a l ih =>
    rw [List.forall_mem_cons, ← ih, List.mapM_cons]
    simp only [bind_eq_ok]
    constructor
    · rintro ⟨-, b, hb, results, hresults, -⟩
      exact ⟨⟨b, hb⟩, results, hresults⟩
    · rintro ⟨⟨b, hb⟩, results, hresults⟩
      exact ⟨b :: results, b, hb, results, hresults, rfl⟩

end CallGraphs
