import CallGraphs.Proofs.Analysis.Derivation
import CallGraphs.Proofs.Classes.Growth
import Mathlib

/-!
# Arguments

Calls and arguments are found by different passes: one asks for the targets of
a site to add calls, the other to pass arguments on.  They agree on direct
calls, on calls that are dispatched, and on calls through slots with all their
overriders, so an argument comes to every function that its site calls
(`arguments_reach_callees`).

They differ in one case.  A virtual call of a method that cannot be found goes
to a function made up from the two names.  That function may well be in the
unit, with a body that calls what it is given, but no argument is passed to it
(`unlistedMethod_loses_argument`).
-/

namespace CallGraphs

open CallGraphs.Flow

/-- An argument of a call site is the address of a function. -/
def CallSite.Passes (site : CallSite) (i : Nat) (f : FunctionKey) : Prop :=
  site.args[i]? = some (some (.function f)) ∨ site.args[i]? = some (some (.lambda f))

/-- A call site does not call a method that cannot be found. -/
def CallSite.Dispatches (h : Hierarchy) (site : CallSite) : Prop :=
  ∀ receiver method, site.target = .virtual receiver method →
    ∃ d, h.dispatch receiver method = .ok d

variable {h : Hierarchy} {returnFlow : ReturnFlow} {u : TranslationUnit} {site : CallSite}

theorem Hierarchy.overrides_of_mem_memberPointerTargets {f target : FunctionKey}
    {receiver : Option String} (hmem : target ∈ h.memberPointerTargets f receiver) :
    target = f ∨ f ∈ h.virtuals ∧ target ∈ h.overriders f := by
  rw [mem_overriders_iff]
  cases receiver with
  | some key => exact (mem_memberPointerTargets_some.mp hmem).imp_right fun hv => ⟨hv.1, hv.2.1⟩
  | none => exact mem_memberPointerTargets_none.mp hmem

/-- Whatever a site calls is called with its arguments. -/
theorem SiteCalls.called {held : Family FunctionKey} {target : FunctionKey} {kind : EdgeKind}
    {confidence : Confidence} (hsite : site ∈ u.callSites) (hfound : site.Dispatches h)
    (hcalls : SiteCalls h held site target kind confidence) :
    Called (PointerCalls.asked h returnFlow u Set.univ) held target
      (PointerCalls.originsOf h returnFlow site.args) site.explicitArgs := by
  cases hcalls with
  | direct htarget =>
      refine .known (PointerCalls.mem_asked_of_site hsite ?_)
      simp [PointerCalls.ofSite, htarget]
  | dispatched htarget hd hmem =>
      refine .known (PointerCalls.mem_asked_of_site hsite ?_)
      simpa [PointerCalls.ofSite, htarget, hd] using SortedSet.mem_def.mp hmem
  | madeUp htarget hd =>
      obtain ⟨d, hok⟩ := hfound _ _ htarget
      exact absurd (hd.symm.trans hok) (by simp)
  | @pointer slot _ htarget hf =>
      have hindirect : PointerCalls.indirect? site = some (slot, .pointer, none) := by
        rw [PointerCalls.indirect?, htarget]
      exact .held (PointerCalls.callThrough_mem_asked h returnFlow Set.univ hsite hindirect) hf
  | @memberPointer slot receiver _ _ htarget hf hmem =>
      have hindirect : PointerCalls.indirect? site = some (slot, .memberPointer, receiver) := by
        rw [PointerCalls.indirect?, htarget]
      have hthrough := PointerCalls.callThrough_mem_asked h returnFlow Set.univ hsite hindirect
      rcases Hierarchy.overrides_of_mem_memberPointerTargets hmem with rfl | ⟨hv, hover⟩
      · exact .held hthrough hf
      · exact .overrider hthrough hf (PointerCalls.overrider_mem_asked hv hover)

theorem CallSite.Passes.getElem?_originsOf {i : Nat} {f : FunctionKey} (hpasses : site.Passes i f) :
    (PointerCalls.originsOf h returnFlow site.args)[i]? = some (some (.item (.function f))) := by
  rcases hpasses with harg | harg <;>
  simp [PointerCalls.originsOf, harg, PointerCalls.originOf]

/-- In the graph of a unit, the address of a function that a site passes comes to every function
that the site calls, unless the site calls a method that cannot be found: whoever calls through the
parameter may call the function. -/
theorem arguments_reach_callees {options : Options} {cancelled : Bool} {index : Nat}
    {p : UnitGraph} (hok : UnitGraph.analyse options cancelled index u = .ok p) :
    ∃ h held, Hierarchy.build u.classes u.functions = .ok h ∧
      IsLeast {F | Solves (PointerCalls.asked h options.returnFlow u Set.univ) id F} held ∧
      (∀ caller callee kind confidence, .call caller callee kind confidence ∈ p.graph.features ↔
        Derived options u h held caller callee kind confidence) ∧
      ∀ site ∈ u.callSites, site.Dispatches h → ∀ i f, site.Passes i f →
        ∀ target kind confidence, SiteCalls h held site target kind confidence →
          ∀ inner ∈ u.callSites, inner.caller = target → inner.target = .pointer (.param target i) →
            .call target f .pointer .may ∈ p.graph.features := by
  obtain ⟨r, hr⟩ := (UnitGraph.analysed_of_analyse hok).features
  rw [hr]
  refine ⟨r.hierarchy, r.held, r.build, r.isLeast_univ,
    fun _ _ _ _ => r.call_mem_features_of_added, ?_⟩
  intro site hsite hfound i f hpasses target kind confidence hcalls inner hinner hcaller htarget
  -- the argument flows into the parameter of every function that is called with it
  have hflows : Flows (PointerCalls.asked r.hierarchy options.returnFlow u Set.univ) id r.held
      (.item (.function f)) (.param target i) :=
    .argument (hcalls.called hsite hfound) hpasses.getElem?_originsOf
  have hheld : .function f ∈ r.held (.param target i) := r.isLeast_univ.1 _ _ hflows rfl
  rw [r.call_mem_features_of_added, ← hcaller]
  exact .site hinner (.pointer (hcaller ▸ htarget) (hcaller ▸ hheld))

/-- A virtual call that passes a function on. -/
def passingSite : CallSite :=
  { caller := "main", target := .virtual "A" "run", args := [some (.function "handler")] }

/-- A call of whatever is passed to an overrider. -/
def receivingSite : CallSite := { caller := "B::run", target := .pointer (.param "B::run" 0) }

/-- A function is passed to a method that a class below overrides. -/
def passedToOverrider : TranslationUnit where
  name := "use"
  functions := [{ key := "main", defined := true }, { key := "A::run", isVirtual := true },
    { key := "B::run", defined := true }, { key := "handler", defined := true }]
  classes := [{ key := "A", methods := [⟨"run", "A::run"⟩] },
    { key := "B", bases := [{ className := "A" }], methods := [⟨"run", "B::run"⟩] }]
  callSites := [passingSite, receivingSite]

theorem passedToOverrider_reaches : ∃ p, UnitGraph.analyse {} false 0 passedToOverrider = .ok p ∧
    passingSite.Passes 0 "handler" ∧ .call "main" "B::run" .virtual .may ∈ p.graph.features ∧
    .call "B::run" "handler" .pointer .may ∈ p.graph.features := by
  obtain ⟨h, d, hbuild, hd, hmem, hmay⟩ : ∃ h d,
      Hierarchy.build passedToOverrider.classes passedToOverrider.functions = .ok h ∧
      h.dispatch "A" "run" = .ok d ∧ "B::run" ∈ d.targets ∧ d.confidence = .may :=
    ⟨_, _, by cbv, by cbv, by decide, by decide⟩
  obtain ⟨p, hok⟩ : ∃ p, UnitGraph.analyse {} false 0 passedToOverrider = .ok p := ⟨_, by cbv⟩
  obtain ⟨h', held, hbuild', -, hcalls, hreach⟩ := arguments_reach_callees hok
  obtain rfl := Except.ok.inj (hbuild.symm.trans hbuild')
  have hpasses : passingSite.Passes 0 "handler" := Or.inl rfl
  have hfound : passingSite.Dispatches h := by
    rintro receiver method ⟨⟩
    exact ⟨d, hd⟩
  have hsite : SiteCalls h held passingSite "B::run" .virtual .may :=
    hmay ▸ .dispatched rfl hd hmem
  refine ⟨p, hok, hpasses, (hcalls _ _ _ _).mpr (.site (.head _) hsite), ?_⟩
  exact hreach passingSite (.head _) hfound 0 "handler" hpasses _ _ _ hsite receivingSite
    (.tail _ (.head _)) rfl rfl

/-- A function is passed to a method, whose body calls its parameter.  The method is called on an
object of a class that the unit does not list. -/
def unlistedMethod : TranslationUnit where
  name := "use"
  functions := [{ key := "main", defined := true }, { key := "Ghost::run", defined := true },
    { key := "handler", defined := true }]
  callSites :=
    [{ caller := "main", target := .virtual "Ghost" "run", args := [some (.function "handler")] },
      { caller := "Ghost::run", target := .pointer (.param "Ghost::run" 0) }]

/-- The method is called, but it does not call what it was given. -/
theorem unlistedMethod_loses_argument : ∃ p, UnitGraph.analyse {} false 0 unlistedMethod = .ok p ∧
    .call "main" "Ghost::run" .virtual .definite ∈ p.graph.features ∧
    .call "Ghost::run" "handler" .pointer .may ∉ p.graph.features := by
  obtain ⟨p, hok, hcalls⟩ : ∃ p, UnitGraph.analyse {} false 0 unlistedMethod = .ok p ∧
      p.graph.calls = [⟨"main", "Ghost::run", .virtual, .definite, some "use"⟩] :=
    ⟨_, by cbv, by cbv⟩
  refine ⟨p, hok, ?_, ?_⟩ <;>
  · rw [Graph.call_mem_features, hcalls]
    decide

end CallGraphs
