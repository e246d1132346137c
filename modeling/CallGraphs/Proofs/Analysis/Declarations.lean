import CallGraphs.Proofs.Analysis.Derivation
import CallGraphs.Proofs.Analysis.Marks
import CallGraphs.Proofs.Analysis.Stubs
import Mathlib

/-!
# Functions with and without records

The functions of a unit that a record mentions are declared in its graph, by the
first pass, and no pass makes a stub of them again; they have a body if some
record has it, since the other passes give no bodies.  A function that no record
mentions is a stub if a fact refers to it, and the unit accounts for it.
-/

namespace CallGraphs

open CallGraphs.Graph

namespace UnitGraph

variable {u : TranslationUnit} {h : Hierarchy} {g : Graph}

/-- A record declares its function. -/
theorem Marked.declared_mem_traits (hg : Marked u h g) {r : FunctionRecord}
    (hr : r ∈ u.functions) : (r.key, .declared) ∈ g.traits :=
  hg.traits ▸ Or.inl (Or.inl ⟨r, hr, rfl, trivial⟩)

/-- The stubs in the graph of a unit have no record, and the unit accounts for them: a stub has no
body, it is marked with the unit, and a diagnostic of the unit says which fact refers to it.  A
function with a record is no stub, and it has a body if one of its records has. -/
theorem stubs_and_declarations {options : Options} {cancelled : Bool} {index : Nat}
    {p : UnitGraph} (hok : analyse options cancelled index u = .ok p) :
    (∀ f ∈ p.graph.nodes, f.stub = true →
      (∀ r ∈ u.functions, r.key ≠ f.key) ∧ p.graph.AccountsFor u.name f) ∧
    ∀ r ∈ u.functions, ∃ f, p.graph.find? r.key = some f ∧ f.stub = false ∧
      (f.hasBody = true ↔ ∃ r' ∈ u.functions, r'.key = r.key ∧ r'.defined = true) := by
  have hanalysed := analysed_of_analyse hok
  have hn : p.graph.keys.Nodup := hanalysed.wellFormed.nodup
  obtain ⟨h, -, hmarked⟩ := marked_of_analyse hok
  constructor
  · refine fun f hf hstub => ⟨fun r hr hkey => ?_, accountsFor_of_analyse hok hf hstub⟩
    have hdeclared : f.Has .declared :=
      (has_iff_mem_traits hn hf).mpr (hkey ▸ hmarked.declared_mem_traits hr)
    exact absurd (hstub.symm.trans hdeclared) (by simp)
  · intro r hr
    obtain ⟨f, hf, hkey, hdeclared⟩ := hmarked.declared_mem_traits hr
    refine ⟨f, (find?_eq_some_iff hn).mpr ⟨hf, hkey⟩, hdeclared, ?_⟩
    have hbody : f.hasBody = true ↔ .body f.key ∈ p.graph.features :=
      has_iff_mem_traits hn hf (t := .body)
    rw [hbody, hanalysed.body_mem_features_iff, hkey]
    exact exists_congr fun r' => and_congr_right fun _ => and_comm

/-- One function calls another one through a pointer and is said to override a third.  Only the
first has records, and only its second record has the body. -/
def strayReferences : TranslationUnit :=
  { name := "a.cpp"
    functions := [{ key := "main" }, { key := "main", defined := true, overrides := ["run"] }]
    assignments := [{ destination := .global "callback", source := .function "handler" }]
    callSites := [{ caller := "main", target := .pointer (.global "callback") }] }

theorem strayReferences_accounted : ∃ p, analyse {} false 0 strayReferences = .ok p ∧
    (∃ f ∈ p.graph.nodes, f.key = "handler" ∧ p.graph.AccountsFor "a.cpp" f) ∧
    (∃ f ∈ p.graph.nodes, f.key = "run" ∧ p.graph.AccountsFor "a.cpp" f) ∧
    ∃ f, p.graph.find? "main" = some f ∧ f.stub = false ∧ f.hasBody = true := by
  obtain ⟨p, hok, ⟨f, hf, hkey, hstub⟩, f', hf', hkey', hstub'⟩ :
      ∃ p, analyse {} false 0 strayReferences = .ok p ∧
        (∃ f ∈ p.graph.nodes, f.key = "handler" ∧ f.stub = true) ∧
        ∃ f ∈ p.graph.nodes, f.key = "run" ∧ f.stub = true :=
    ⟨_, by cbv, by decide, by decide⟩
  obtain ⟨hstubs, hrecords⟩ := stubs_and_declarations hok
  obtain ⟨main, hfind, hnot, hbody⟩ := hrecords { key := "main" } (by decide)
  exact ⟨p, hok, ⟨f, hf, hkey, (hstubs f hf hstub).2⟩, ⟨f', hf', hkey', (hstubs f' hf' hstub').2⟩,
    main, hfind, hnot, hbody.mpr (by decide)⟩

end UnitGraph

end CallGraphs
