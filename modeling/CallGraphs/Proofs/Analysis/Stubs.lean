import CallGraphs.Analysis.UnitGraph
import CallGraphs.Proofs.Graph.Traits

/-!
# Where stubs come from

A function that no declaration mentions comes into a graph as a stub, and a unit
accounts for the stub: the function has no body, it is marked with the unit, and
a diagnostic of the unit says which fact refers to it.  Over the whole program
nothing is said, since the units have been through the facts already.

`Scope.Reports` says both of a graph that has come from another: in a unit the
stubs without an account have not become more, and over the whole program the
malformed facts that are reported have not.  Every pass is like that, so the
graph of a unit accounts for all its stubs (`UnitGraph.accountsFor_of_analyse`).
-/

namespace CallGraphs

/-- The diagnostic is about a fact that does not make sense. -/
def Diagnostic.IsMalformedFact (d : Diagnostic) : Prop :=
  ∃ detail, d.finding = .malformedFact detail

namespace Graph

/-- A diagnostic says that some fact refers to a function which is not known. -/
def Explains (g : Graph) (key : FunctionKey) : Prop :=
  ∃ d ∈ g.diagnostics, ∃ what,
    d.finding = .malformedFact (what ++ " references unknown symbol " ++ key)

/-- A unit accounts for a function that its records do not mention. -/
structure AccountsFor (g : Graph) (unit : String) (f : Function) : Prop where
  bodiless : f.hasBody = false
  origin : f.origin = some unit
  reported : ∃ d ∈ g.diagnostics, d.unit = some unit ∧ ∃ what,
    d.finding = .malformedFact (what ++ " references unknown symbol " ++ f.key)

theorem AccountsFor.explains {g : Graph} {unit : String} {f : Function}
    (h : g.AccountsFor unit f) : g.Explains f.key := by
  obtain ⟨d, hd, -, hdetail⟩ := h.reported
  exact ⟨d, hd, hdetail⟩

/-- The keys of the stubs for which the unit does not account. -/
def unaccounted (g : Graph) (unit : String) : Set FunctionKey :=
  {key | ∃ f ∈ g.nodes, f.key = key ∧ f.stub = true ∧ ¬ g.AccountsFor unit f}

theorem unaccounted_empty (unit : String) : empty.unaccounted unit = ∅ := by
  ext key
  simp [unaccounted, empty]

theorem mem_diagnostics_addDiagnostic {g : Graph} {d d' : Diagnostic} :
    d' ∈ (g.addDiagnostic d).diagnostics ↔ d' ∈ g.diagnostics ∨ d' = d := by
  rw [addDiagnostic]
  split
  · next hmem => exact (or_iff_left_of_imp fun heq => heq ▸ hmem).symm
  · rw [List.mem_append, List.mem_singleton]

end Graph

/-- Both functions are stubs, and an account of one is an account of the other. -/
structure Function.SameStub (f f' : Function) : Prop where
  key : f.key = f'.key
  stub : f.stub = true
  hasBody : f.hasBody = f'.hasBody
  origin : f.origin = f'.origin

theorem Function.SameStub.accountsFor {f f' : Function} (h : f.SameStub f') {g g' : Graph}
    (hsub : g.diagnostics ⊆ g'.diagnostics) {unit : String} (hf : g.AccountsFor unit f) :
    g'.AccountsFor unit f' where
  bodiless := h.hasBody ▸ hf.bodiless
  origin := h.origin ▸ hf.origin
  reported := by
    obtain ⟨d, hd, hdetail⟩ := hf.reported
    exact ⟨d, hsub hd, h.key ▸ hdetail⟩

namespace Scope

open CallGraphs.Graph

/-- The second graph comes from the first one, and what had to be reported in the scope is. -/
structure Reports (s : Scope) (g g' : Graph) : Prop where
  accounted : s.isGlobal = false → g'.unaccounted s.unit ⊆ g.unaccounted s.unit
  silent : s.isGlobal = true → ∀ d ∈ g'.diagnostics, d.IsMalformedFact → d ∈ g.diagnostics

namespace Reports

variable {s : Scope} {g g' g'' : Graph}

theorem refl (g : Graph) : Reports s g g := ⟨fun _ => subset_rfl, fun _ _ hd _ => hd⟩

theorem trans (h : Reports s g g') (h' : Reports s g' g'') : Reports s g g'' where
  accounted hunit := (h'.accounted hunit).trans (h.accounted hunit)
  silent hall d hd hfact := h.silent hall d (h'.silent hall d hd hfact) hfact

/-- A pass over a list, each step of which reports what it has to. -/
theorem foldl {σ α : Type} (graph : σ → Graph) {step : σ → α → σ}
    (hstep : ∀ st x, Reports s (graph st) (graph (step st x))) (l : List α) (st : σ) :
    Reports s (graph st) (graph (l.foldl step st)) := by
  induction l generalizing st with
  | nil => exact refl _
  | cons x l ih => exact (hstep st x).trans (ih _)

/-- Stubs were stubs before, or the unit accounts for them. -/
theorem of_nodes (hstubs : ∀ f' ∈ g'.nodes, f'.stub = true →
      (∃ f ∈ g.nodes, f.SameStub f') ∨ (s.isGlobal = false → g'.AccountsFor s.unit f'))
    (hsub : g.diagnostics ⊆ g'.diagnostics)
    (hsilent : s.isGlobal = true → ∀ d ∈ g'.diagnostics, d.IsMalformedFact → d ∈ g.diagnostics) :
    Reports s g g' where
  accounted hunit := by
    rintro _ ⟨f', hf', rfl, hstub, hnot⟩
    rcases hstubs f' hf' hstub with ⟨f, hf, hsame⟩ | hnew
    · exact ⟨f, hf, hsame.key, hsame.stub, fun hold => hnot (hsame.accountsFor hsub hold)⟩
    · exact absurd (hnew hunit) hnot
  silent := hsilent

end Reports

/-! ## Operations -/

section Operations

variable (s : Scope) (g : Graph)

theorem reports_modifyNode (id : NodeId) (change : Function → Function)
    (hsame : ∀ f, (change f).stub = true → f.SameStub (change f)) :
    Reports s g (g.modifyNode id change) := by
  refine .of_nodes (fun f' hf' hstub => Or.inl ?_) (List.Subset.refl _) fun _ _ hd _ => hd
  obtain ⟨i, f, hi, rfl⟩ := mem_nodes_modifyNode.mp hf'
  refine ⟨f, List.mem_of_getElem? hi, ?_⟩
  split at hstub
  · rw [if_pos ‹_›]
    exact hsame f hstub
  · rw [if_neg ‹_›]
    exact ⟨rfl, hstub, rfl, rfl⟩

/-- A declaration is no stub, and what it meets is none any more. -/
theorem reports_addFunction {f : Function} (hf : f.stub = false) :
    Reports s g (g.addFunction f).1 := by
  rw [addFunction]
  split
  · exact reports_modifyNode s g _ _ fun f' h => by simp [Function.absorb, hf] at h
  · refine .of_nodes (fun f' hf' hstub => Or.inl ?_) (List.Subset.refl _) fun _ _ hd _ => hd
    rcases List.mem_append.mp hf' with hf' | hf'
    · exact ⟨f', hf', rfl, hstub, rfl, rfl⟩
    · rw [List.mem_singleton.mp hf', hf] at hstub
      exact absurd hstub (by simp)

theorem reports_ensureNode (key : FunctionKey) : Reports s g (g.ensureNode key).1 := by
  rw [ensureNode]
  split
  · exact .refl g
  · exact reports_addFunction s g (f := .declared key) rfl

theorem reports_linkOverride (overrider base : FunctionKey) :
    Reports s g (g.linkOverride overrider base) := by
  have hends := (reports_ensureNode s g overrider).trans (reports_ensureNode s _ base)
  simp only [linkOverride]
  split
  · exact hends
  · have hfirst := reports_modifyNode s ((g.ensureNode overrider).1.ensureNode base).1
      (g.ensureNode overrider).2 (fun f => { f with overrides := f.overrides.insert base })
      fun _ h => ⟨rfl, h, rfl, rfl⟩
    exact (hends.trans hfirst).trans (reports_modifyNode s _ _ _ fun _ h => ⟨rfl, h, rfl, rfl⟩)

theorem reports_addDiagnostic {d : Diagnostic} (hd : s.isGlobal = true → ¬ d.IsMalformedFact) :
    Reports s g (g.addDiagnostic d) := by
  have hnodes : (g.addDiagnostic d).nodes = g.nodes := by
    rw [addDiagnostic]
    split <;> rfl
  refine .of_nodes (fun f hf hstub => Or.inl ⟨f, hnodes ▸ hf, rfl, hstub, rfl, rfl⟩) ?_ ?_
  · exact fun d' hd' => mem_diagnostics_addDiagnostic.mpr (Or.inl hd')
  · intro hall d' hd' hfact
    rcases mem_diagnostics_addDiagnostic.mp hd' with hd' | rfl
    · exact hd'
    · exact absurd hfact (hd hall)

theorem reports_insertEdge (e : Edge) (origin : Option String) :
    Reports s g (g.insertEdge e origin).1 := by
  rw [insertEdge]
  split
  · exact .of_nodes (fun f hf hstub => Or.inl ⟨f, hf, rfl, hstub, rfl, rfl⟩)
      (List.Subset.refl _)
      fun _ _ hd _ => hd
  · exact .refl g

theorem reports_malformed (detail : String) : Reports s g (s.malformed g detail) := by
  rw [malformed]
  split
  · exact .refl g
  · next hunit => exact reports_addDiagnostic s g fun hall => absurd hall hunit

theorem mem_diagnostics_malformed (hunit : s.isGlobal = false) (detail : String) :
    { finding := .malformedFact detail, unit := some s.unit } ∈
      (s.malformed g detail).diagnostics := by
  rw [malformed, if_neg (by simp [hunit])]
  exact mem_diagnostics_addDiagnostic.mpr (Or.inr rfl)

/-- In a unit a stub comes in together with its account. -/
theorem reports_reference (key : FunctionKey) (what : String) :
    Reports s g (s.reference g key what).1 := by
  rw [reference, ensureStub]
  cases hid : g.nodeId? key with
  | some id => exact .refl g
  | none =>
      simp only [addFunction, show (Function.stubOf key).key = key from rfl, hid]
      have hsub := (s.evolves_malformed { g with nodes := g.nodes ++ [.stubOf key] }
        (what ++ " references unknown symbol " ++ key)).diagnostics
      have hsilent := (reports_malformed s { g with nodes := g.nodes ++ [.stubOf key] }
        (what ++ " references unknown symbol " ++ key)).silent
      cases hscope : s.isGlobal with
      | true => exact .of_nodes (fun _ _ _ => Or.inr (by simp [hscope])) hsub hsilent
      | false =>
          refine .of_nodes (fun f' hf' hstub => ?_) hsub hsilent
          obtain ⟨i, f, hi, rfl⟩ := mem_nodes_modifyNode.mp hf'
          rw [nodes_malformed] at hi
          by_cases hlast : g.size = i
          · -- the node that has just come in
            obtain rfl : f = .stubOf key := by simpa [← hlast, size] using hi.symm
            rw [if_pos hlast]
            exact Or.inr fun _ =>
              ⟨rfl, rfl, _, mem_diagnostics_malformed s _ hscope _, rfl, what, rfl⟩
          · rw [if_neg hlast] at hstub ⊢
            have hold : g.nodes[i]? = some f := by grind [size]
            exact Or.inl ⟨f, List.mem_of_getElem? hold, rfl, hstub, rfl, rfl⟩

theorem reports_call (caller callee : FunctionKey) (kind : EdgeKind) (confidence : Confidence) :
    Reports s g (s.call g caller callee kind confidence).1 :=
  ((reports_reference s g _ _).trans (reports_reference s _ _ _)).trans (reports_insertEdge s _ _ _)

theorem reports_callAll (caller : FunctionKey) (callees : List FunctionKey) (kind : EdgeKind)
    (confidence : Confidence) : Reports s g (s.callAll g caller callees kind confidence).1 := by
  refine Reports.foldl Prod.fst (fun st callee => ?_) callees (g, 0)
  have hcall := reports_call s st.1 caller callee kind confidence
  rcases hres : s.call st.1 caller callee kind confidence with ⟨g', isNew⟩
  rw [hres] at hcall
  cases isNew <;> simpa only [hres] using hcall

end Operations

end Scope

/-! ## Passes -/

namespace DirectCalls

variable (s : Scope)

theorem reports_checkArity (g : Graph) (arities : Arities) (r : FunctionRecord) :
    s.Reports g (checkArity s g arities r).1 := by
  rw [checkArity]
  split
  · exact .refl g
  · split
    · exact .refl g
    · split
      · exact .refl g
      · exact s.reports_malformed g _

theorem reports_declare (state : Graph × Arities) (r : FunctionRecord) :
    s.Reports state.1 (declare s state r).1 :=
  (reports_checkArity s state.1 state.2 r).trans
    (s.reports_addFunction _ (f := functionOf s r) rfl)

theorem reports_linkDeclared (key : FunctionKey) (g : Graph) (base : FunctionKey) :
    s.Reports g (linkDeclared s key g base) :=
  (s.reports_reference g base _).trans (s.reports_linkOverride _ key base)

theorem reports_addSite (state : Graph × Nat) (site : CallSite) :
    s.Reports state.1 (addSite s state site).1 := by
  rw [addSite]
  split
  · exact s.reports_callAll _ _ _ _ _
  · exact .refl _

theorem reports_run (u : TranslationUnit) (g : Graph) : s.Reports g (run s u g).1 := by
  have hdeclared := Scope.Reports.foldl Prod.fst (reports_declare s) u.functions (g, [])
  have hlink (g : Graph) (r : FunctionRecord) :
      s.Reports g (r.overrides.foldl (linkDeclared s r.key) g) :=
    Scope.Reports.foldl id (reports_linkDeclared s r.key) r.overrides g
  have hlinked := Scope.Reports.foldl id hlink u.functions
    (u.functions.foldl (declare s) (g, [])).1
  exact (hdeclared.trans hlinked).trans
    (Scope.Reports.foldl Prod.fst (reports_addSite s) u.callSites (_, 0))

end DirectCalls

namespace VirtualCalls

variable (s : Scope)

theorem reports_markVirtual (g : Graph) (f : FunctionKey) : s.Reports g (markVirtual g f) := by
  rw [markVirtual]
  split
  · exact s.reports_modifyNode g _ _ fun _ h => ⟨rfl, h, rfl, rfl⟩
  · exact .refl g

theorem reports_record (h : Hierarchy) (g : Graph) : s.Reports g (record s h g) := by
  have hproblems := Scope.Reports.foldl id s.reports_malformed h.problems g
  have hmarked := Scope.Reports.foldl id (reports_markVirtual s) h.virtuals.toList
    (h.problems.foldl s.malformed g)
  have hlink (g : Graph) (o : Override) : s.Reports g (g.linkOverride o.overrider o.base) :=
    s.reports_linkOverride g o.overrider o.base
  exact (hproblems.trans hmarked).trans (Scope.Reports.foldl id hlink h.overrides.toList _)

theorem reports_addSite (h : Hierarchy) (state : Graph × DispatchStats) (site : CallSite) :
    s.Reports state.1 (addSite s h state site).1 := by
  unfold addSite
  cases site.target with
  | virtual receiver method =>
      dsimp only
      cases h.dispatch receiver method with
      | ok d =>
          obtain ⟨targets, confidence⟩ := d
          have hcalls := s.reports_callAll state.1 site.caller targets.toList .virtual confidence
          cases confidence <;> exact hcalls
      | error failure => exact (s.reports_malformed _ _).trans (s.reports_call _ _ _ _ _)
  | _ => exact .refl _

theorem reports_run {u : TranslationUnit} {g g' : Graph} {h : Hierarchy} {stats : DispatchStats}
    (hrun : run s u g = .ok (g', h, stats)) : s.Reports g g' := by
  rw [run] at hrun
  split at hrun
  · exact absurd hrun (by simp)
  · next h' hbuild =>
    obtain ⟨rfl, -⟩ := Prod.mk.inj (Except.ok.inj hrun)
    exact (reports_record s h' g).trans
      (Scope.Reports.foldl Prod.fst (reports_addSite s h') u.callSites (_, {}))

end VirtualCalls

namespace PointerCalls

variable (c : Setting) (st : State)

theorem reports_value (source : PointerSource) :
    c.scope.Reports st.graph (value c st source).1.graph := by
  cases source with
  | function key => exact c.scope.reports_reference st.graph key _
  | lambda key =>
      exact (c.scope.reports_reference st.graph key _).trans
        (c.scope.reports_modifyNode _ _ _ fun _ h => ⟨rfl, h, rfl, rfl⟩)
  | slot slot => exact .refl _
  | callResult callee =>
      rw [value]
      cases c.returnFlow <;> exact .refl _
  | null => exact .refl _

theorem reports_arguments (args : List (Option PointerSource)) :
    c.scope.Reports st.graph (arguments c st args).1.graph := by
  refine Scope.Reports.foldl (fun st : State × List (Option Flow.Value) => st.1.graph)
    (fun st arg => ?_) args (st, [])
  cases arg with
  | some source => exact reports_value c st.1 source
  | none => exact .refl _

theorem reports_addDefault (id : NodeId) (d : DefaultArg) :
    c.scope.Reports st.graph (addDefault c id st d).graph := by
  have hvalue := reports_value c st d.value
  rw [addDefault]
  split <;> simpa [*] using hvalue

theorem reports_addDefaults (r : FunctionRecord) :
    c.scope.Reports st.graph (addDefaults c st r).graph := by
  rw [addDefaults]
  split
  · exact .refl _
  · exact (c.scope.reports_reference st.graph r.key _).trans
      (Scope.Reports.foldl State.graph (fun st d => reports_addDefault c st _ d) r.defaultArgs
        (reference c st r.key "default argument owner").1)

theorem reports_addAssignment (a : Assignment) :
    c.scope.Reports st.graph (addAssignment c st a).graph := by
  have hvalue : c.scope.Reports st.graph (value c (place c st a.destination).1 a.source).1.graph :=
    reports_value c (place c st a.destination).1 a.source
  rw [addAssignment]
  dsimp only
  split <;> simpa [*] using hvalue

theorem reports_addSite (site : CallSite) :
    c.scope.Reports st.graph (addSite c st site).graph := by
  rw [addSite]
  cases site.target with
  | direct callee =>
      have href := c.scope.reports_reference st.graph callee ("call from " ++ site.caller)
      exact href.trans
        (reports_arguments c (reference c st callee ("call from " ++ site.caller)).1 site.args)
  | virtual receiver method =>
      dsimp only
      cases c.hierarchy.dispatch receiver method with
      | ok d =>
          exact (reports_arguments c st site.args).trans
            (Scope.Reports.foldl State.graph
              (fun st callee => c.scope.reports_reference st.graph callee _) d.targets.toList
              (arguments c st site.args).1)
      | error failure => exact .refl _
  | pointer slot | memberPointer slot =>
      exact reports_arguments c (place c st slot).1 site.args
  | implicit => exact .refl _

theorem reports_addExpansion (f : FunctionKey) :
    c.scope.Reports st.graph (addExpansion c st f).graph := by
  rw [addExpansion]
  split <;> exact .refl _

theorem reports_constraints (u : TranslationUnit) (g : Graph) :
    c.scope.Reports g (constraints c u g).graph :=
  (((Scope.Reports.foldl State.graph (reports_addDefaults c) u.functions { graph := g }).trans
    (Scope.Reports.foldl State.graph (reports_addAssignment c) u.assignments _)).trans
    (Scope.Reports.foldl State.graph (reports_addSite c) u.callSites _)).trans
    (Scope.Reports.foldl State.graph (reports_addExpansion c) c.hierarchy.virtuals.toList _)

theorem reports_resolveSite (p : Flow.Program) (state : Graph × FlowReport) (site : CallSite) :
    c.scope.Reports state.1 (resolveSite c p state site).1 := by
  rw [resolveSite]
  split
  · exact .refl _
  · dsimp only
    split
    · exact .refl _
    · split
      · -- a call without targets is no malformed fact
        refine (c.scope.reports_callAll _ _ _ _ _).trans (c.scope.reports_addDiagnostic _ ?_)
        rintro - ⟨detail, hdetail⟩
        exact absurd hdetail (by simp)
      · exact c.scope.reports_callAll _ _ _ _ _

theorem reports_run {s : Scope} {options : Options} {cancelled : Bool} {h : Hierarchy}
    {u : TranslationUnit} {g g' : Graph} {report : FlowReport}
    (hrun : run s options cancelled h u g = (g', .ok report)) : s.Reports g g' := by
  simp only [run] at hrun
  split at hrun
  · exact absurd hrun (by simp)
  · next p fixpoint hok =>
    obtain ⟨rfl, -⟩ := Prod.mk.inj hrun
    exact (reports_constraints ⟨s, h, options.returnFlow⟩ u g).trans
      (Scope.Reports.foldl Prod.fst (reports_resolveSite _ p) u.callSites (_, { fixpoint }))

end PointerCalls

namespace LifetimeCalls

variable (s : Scope) (h : Hierarchy)

theorem reports_emit (state : State) (caller : FunctionKey) (targets : List FunctionKey)
    (confidence : Confidence) : s.Reports state.1 (emit s state caller targets confidence).1 := by
  have hcalls := s.reports_callAll state.1 caller targets .implicit confidence
  cases confidence <;> exact hcalls

theorem reports_addEvent (state : State) (e : LifetimeEvent) :
    s.Reports state.1 (addEvent s h state e).1 := by
  rw [addEvent]
  split
  · exact reports_emit s state _ _ _
  · exact s.reports_malformed _ _

theorem reports_addBody (explicit : List (FunctionKey × Phase)) (phase : Phase)
    (targets : List FunctionKey) (state : State) (f : FunctionKey) :
    s.Reports state.1 (addBody s explicit phase targets state f).1 := by
  rw [addBody]
  split
  · exact reports_emit s state _ _ _
  · exact .refl _

theorem reports_addBodies (explicit : List (FunctionKey × Phase)) (state : State)
    (c : ClassRecord) : s.Reports state.1 (addBodies s h explicit state c).1 :=
  (Scope.Reports.foldl Prod.fst (reports_addBody s explicit _ _) _ state).trans
    (Scope.Reports.foldl Prod.fst (reports_addBody s explicit _ _) _ _)

theorem reports_run (options : Options) (u : TranslationUnit) (g : Graph) :
    s.Reports g (run s options h u g).1 := by
  rw [run]
  split
  · exact (Scope.Reports.foldl Prod.fst (reports_addEvent s h) _ (g, _)).trans
      (Scope.Reports.foldl Prod.fst (reports_addBodies s h _) _ _)
  · exact .refl g

end LifetimeCalls

/-! ## Units -/

/-- The passes after the first one. -/
theorem reports_passes {s : Scope} {options : Options} {cancelled : Bool} {u : TranslationUnit}
    {g g₁ g₂ : Graph} {h : Hierarchy} {dispatch : DispatchStats} {flow : FlowReport}
    (hvirtual : VirtualCalls.run s u g = .ok (g₁, h, dispatch))
    (hpointers : PointerCalls.run s options cancelled h u g₁ = (g₂, .ok flow)) :
    s.Reports g (LifetimeCalls.run s options h u g₂).1 :=
  ((VirtualCalls.reports_run s hvirtual).trans (PointerCalls.reports_run hpointers)).trans
    (LifetimeCalls.reports_run s h options u g₂)

/-- The graph of a unit accounts for its stubs. -/
theorem UnitGraph.accountsFor_of_analyse {options : Options} {cancelled : Bool} {index : Nat}
    {u : TranslationUnit} {p : UnitGraph} (hok : analyse options cancelled index u = .ok p)
    {f : Function} (hf : f ∈ p.graph.nodes) (hstub : f.stub = true) :
    p.graph.AccountsFor u.name f := by
  have hall : Scope.Reports { unit := u.name } .empty p.graph := by
    simp only [analyse] at hok
    split at hok
    · exact absurd hok (by simp)
    split at hok
    · exact absurd hok (by simp)
    · next g₁ h dispatch hvirtual =>
      split at hok
      · exact absurd hok (by simp)
      · next g₂ flow hpointers =>
        obtain rfl := Except.ok.inj hok
        exact (DirectCalls.reports_run _ u .empty).trans (reports_passes hvirtual hpointers)
  by_contra hnot
  have hmem := hall.accounted rfl ⟨f, hf, rfl, hstub, hnot⟩
  rw [Graph.unaccounted_empty] at hmem
  exact hmem

end CallGraphs
