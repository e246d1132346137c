import CallGraphs.Proofs.Analysis.Pointers
import CallGraphs.Proofs.Flow.Rounds

/-!
# When the pass for pointers succeeds

Only a limit on the rounds can make the pass fail, if it is not called off.
Whether it does depends on the constraints that the facts ask for and on nothing
else: the pass succeeds exactly if at the limit nothing is new
(`PointerCalls.exists_run_iff`).  Node numbers and slot places do not come into
it, so neither does the order in which facts are looked at.
-/

namespace CallGraphs

namespace PointerCalls

open CallGraphs.Graph CallGraphs.Flow

/-- At the limit, if there is one, nothing is new. -/
def EndsWithin (limit : Option Nat) (ks : Set (Constraint FunctionKey)) : Prop :=
  ∀ n, limit = some n → after ks id (n + 1) = after ks id n

theorem exists_solve_iff {st : State} {ks : List (Constraint FunctionKey)} (hst : Holds st ks)
    (hg : st.graph.WellFormed) {limit : Option Nat} :
    (∃ stats, (st.program.solve (st.graph.nodes.map (·.key)) limit false).2 = .ok stats) ↔
      EndsWithin limit {k | k ∈ ks} := by
  obtain ⟨cs, hbuilt, hover, rfl⟩ := hst
  have hrep := hbuilt.represents
  have hknown : ∀ c ∈ st.program.constraints,
      c.Over (· < (st.graph.nodes.map (·.key)).length) := by
    intro c hc
    rw [List.length_map]
    exact hover c (hrep.sound c hc)
  have hsame : ∀ n, after {c | c ∈ st.program.constraints} st.graph.keyOf n =
      after {c | c ∈ cs} st.graph.keyOf n :=
    after_congr hrep.sound hrep.complete
  have himage : {k | k ∈ cs.map (.map st.graph.keyOf)} =
      Constraint.map st.graph.keyOf '' {k | k ∈ cs} := by
    ext k
    simp
  rw [solve_ok_iff hrep.valid hrep.fresh hknown, nameOf_nodes, EndsWithin, himage]
  refine forall_congr' fun n => imp_congr_right fun _ => ?_
  rw [hsame, hsame]
  symm
  -- keys are as good as numbers
  exact after_map_stable_iff (keyOf_injOn hg.nodup) hover fun _ _ => rfl

/-- The pass succeeds exactly if the constraints of the facts are solved within the limit. -/
theorem exists_run_iff (s : Scope) (options : Options) {h : Hierarchy} {u : TranslationUnit}
    {g : Graph} (hg : g.WellFormed) :
    (∃ g' report, run s options false h u g = (g', .ok report)) ↔
      EndsWithin options.maxIterations
        (asked h options.returnFlow u (g.features ∪ referred h u)) := by
  obtain ⟨hfacts, ks, hks, hasked⟩ :=
    holds_constraints ⟨s, h, options.returnFlow⟩ u hg
  rw [hfacts.features] at hasked
  rw [← hasked, ← exists_solve_iff hks hfacts.wellFormed]
  constructor
  · rintro ⟨g', report, hrun⟩
    simp only [run] at hrun
    split at hrun
    · exact absurd hrun (by simp)
    · next p stats hsolve => exact ⟨stats, by rw [hsolve]⟩
  · rintro ⟨stats, hstats⟩
    simp only [run]
    split
    · next p failure hsolve =>
      rw [hsolve] at hstats
      exact absurd hstats (by simp)
    · exact ⟨_, _, rfl⟩

end PointerCalls

end CallGraphs
