import CallGraphs.Proofs.Analysis.Entries
import CallGraphs.Proofs.Analysis.Passes
import CallGraphs.Proofs.Analysis.Reordering
import CallGraphs.Proofs.Analysis.Success
import CallGraphs.Proofs.Analysis.Unresolved
import CallGraphs.Proofs.Classes.Repetition

/-!
# Facts that are repeated

A unit repeats the facts of another one (`TranslationUnit.Repeats`).  Over graphs
that resemble each other, each pass succeeds on the one if it does on the other,
and again the graphs resemble each other.  The hierarchy is the same, and so are
the constraints on the slots and what the least solution holds; so both sides make
the same entries, on one side with repetitions.

A unit under another name is a case of it: its graph is the same up to the marks
of the unit (`UnitGraph.exists_analyse_rename`).
-/

namespace CallGraphs

open CallGraphs.Graph

namespace TranslationUnit

/-- The second unit says what the first one says, some of it more than once. -/
structure Repeats (u u' : TranslationUnit) : Prop where
  functions : Echoes [] u.functions u'.functions
  classes : Echoes [] u.classes u'.classes
  callSites : Echoes [] u.callSites u'.callSites
  assignments : Echoes [] u.assignments u'.assignments
  lifetimeEvents : Echoes [] u.lifetimeEvents u'.lifetimeEvents

namespace Repeats

variable {u u' : TranslationUnit}

theorem rename (u : TranslationUnit) (name : String) : u.Repeats { u with name := name } :=
  ⟨.refl _ _, .refl _ _, .refl _ _, .refl _ _, .refl _ _⟩

theorem alike (hu : u.Repeats u') : u.Alike u' :=
  ⟨hu.functions.mem_iff, hu.classes.mem_iff, hu.callSites.mem_iff, hu.assignments.mem_iff,
    hu.lifetimeEvents.mem_iff⟩

theorem allLifetimeEvents (hu : u.Repeats u') :
    Echoes [] u.allLifetimeEvents u'.allLifetimeEvents :=
  hu.lifetimeEvents.append (hu.callSites.filterMap _)

theorem build_eq (hu : u.Repeats u') :
    Hierarchy.build u.classes u.functions = Hierarchy.build u'.classes u'.functions :=
  Hierarchy.build_of_echoes hu.classes hu.functions.mem_iff

end Repeats

end TranslationUnit

variable {named : Bool} {s s' : Scope} {u u' : TranslationUnit} {g g' : Graph}

/-! ## Virtual calls -/

namespace VirtualCalls

/-- The entries of a virtual call. -/
def entries (h : Hierarchy) (site : CallSite) : List GraphEntry :=
  match site.target with
  | .virtual receiver method =>
    match h.dispatch receiver method with
    | .ok d => GraphEntry.calls site.caller d.targets.toList .virtual d.confidence
    | .error _ => [.call site.caller (standIn receiver method) .virtual .definite]
  | _ => []

theorem resembles_addSite (named : Bool) (s : Scope) (h : Hierarchy)
    (state : Graph × DispatchStats) (site : CallSite) :
    (addSite s h state site).1.Resembles named
      (GraphEntry.enterAll s state.1 (entries h site)) := by
  rw [addSite, entries]
  cases site.target with
  | virtual receiver method =>
      dsimp only
      cases h.dispatch receiver method with
      | ok d =>
          dsimp only
          rw [← GraphEntry.callAll_eq]
          cases d.confidence <;> exact .refl named _
      | error failure =>
          exact Scope.resembles_call (.refl named s)
            (s.resembles_malformed named state.1 _).symm site.caller (standIn receiver method)
            .virtual .definite
  | _ => exact .refl named _

theorem resembles_markVirtual (hg : g.Resembles named g') (f : FunctionKey) :
    (markVirtual g f).Resembles named (markVirtual g' f) := by
  rw [markVirtual, markVirtual, ← hg.nodeId?_eq]
  cases g.nodeId? f with
  | none => exact hg
  | some id =>
      refine hg.modifyNode id fun f f' hsame => ?_
      exact congrArg (fun f : Function => { f with isVirtual := true }) hsame

theorem resembles_record (s s' : Scope) (hg : g.Resembles named g') (h : Hierarchy) :
    (record s h g).Resembles named (record s' h g') := by
  have hreported : ∀ (s : Scope) (g : Graph),
      g.Resembles named (h.problems.foldl s.malformed g) := by
    intro s g
    exact .foldl_of_forall (s.resembles_malformed named) h.problems g
  have hproblems := ((hreported s g).symm.trans hg).trans (hreported s' g')
  have hmarked := List.foldl_rel (l := h.virtuals.toList) (r := Graph.Resembles named) hproblems
    fun f _ _ _ hrel => resembles_markVirtual hrel f
  exact List.foldl_rel (l := h.overrides.toList) (r := Graph.Resembles named) hmarked
    fun o _ _ _ hrel => hrel.linkOverride o.overrider o.base

theorem exists_run_of_repeats (hs : s.Resembles named s') (hu : u.Repeats u')
    (hwell : g.WellFormed) (hg : g.Resembles named g') {g₁ : Graph} {h : Hierarchy}
    {stats : DispatchStats} (hrun : run s u g = .ok (g₁, h, stats)) :
    ∃ g₁' stats', run s' u' g' = .ok (g₁', h, stats') ∧ g₁.Resembles named g₁' := by
  rw [run] at hrun ⊢
  rw [← hu.build_eq]
  cases hbuild : Hierarchy.build u.classes u.functions with
  | error key =>
      rw [hbuild] at hrun
      exact absurd hrun (by simp)
  | ok h' =>
      rw [hbuild] at hrun
      obtain ⟨rfl, rfl, -⟩ := by simpa only [Except.ok.injEq, Prod.mk.injEq] using hrun
      refine ⟨_, _, rfl, ?_⟩
      have hentries : ∀ (s : Scope) (sites : List CallSite) (g : Graph),
          (sites.foldl (addSite s h') (g, {})).1.Resembles named
            (GraphEntry.enterAll s g (sites.flatMap (entries h'))) := fun s sites g =>
        GraphEntry.resembles_foldl Prod.fst (fun _ => True)
          (fun st site _ => ⟨resembles_addSite named s h' st site, trivial⟩) sites trivial
      have hrecorded := resembles_record s s' hg h'
      have hwell' := (adds_record s' h' (hg.wellFormed hwell)).wellFormed
      refine ((hentries s _ _).trans (GraphEntry.resembles_of_echoes ?_ hs hwell' hrecorded)).trans
        (hentries s' _ _).symm
      exact hu.callSites.flatMap _

end VirtualCalls

/-! ## Pointers -/

namespace PointerCalls

open CallGraphs.Flow

/-! ### Functions that facts refer to -/

/-- The entries of a source. -/
def sourceEntries : PointerSource → List GraphEntry
  | .function key => [.function key]
  | .lambda key => [.lambda key]
  | .slot _ | .callResult _ | .null => []

/-- The entries of arguments. -/
def argEntries (args : List (Option PointerSource)) : List GraphEntry :=
  args.flatMap fun arg => arg.toList.flatMap sourceEntries

/-- The entries of the default arguments of a function. -/
def recordEntries (r : FunctionRecord) : List GraphEntry :=
  if r.defaultArgs.isEmpty then []
  else .function r.key :: r.defaultArgs.flatMap fun d => sourceEntries d.value

/-- The entries of a call site, before what the slots hold is known. -/
def siteEntries (h : Hierarchy) (site : CallSite) : List GraphEntry :=
  match site.target with
  | .direct callee => .function callee :: argEntries site.args
  | .virtual receiver method =>
    match h.dispatch receiver method with
    | .ok d => argEntries site.args ++ d.targets.toList.map .function
    | .error _ => []
  | .pointer _ | .memberPointer .. => argEntries site.args
  | .implicit .. => []

/-- The entries of the facts of a unit, before what the slots hold is known. -/
def factEntries (h : Hierarchy) (u : TranslationUnit) : List GraphEntry :=
  u.functions.flatMap recordEntries ++ u.assignments.flatMap (fun a => sourceEntries a.source) ++
    u.callSites.flatMap (siteEntries h)

section Facts

variable (named) (c : Setting) (st : State)

theorem resembles_reference (key : FunctionKey) (what : String) :
    (reference c st key what).1.graph.Resembles named
      (GraphEntry.enterAll c.scope st.graph [.function key]) :=
  (Scope.resembles_reference (.refl named c.scope) (.refl named st.graph) key what "").1

theorem resembles_value (source : PointerSource) :
    (value c st source).1.graph.Resembles named
      (GraphEntry.enterAll c.scope st.graph (sourceEntries source)) := by
  cases source with
  | function key => exact resembles_reference named c st key _
  | lambda key =>
      obtain ⟨href, hid⟩ := Scope.resembles_reference (.refl named c.scope) (.refl named st.graph)
        key "lambda conversion" ""
      show Graph.Resembles named _ (GraphEntry.enter c.scope st.graph (.lambda key))
      rw [GraphEntry.enter, ← hid]
      refine href.modifyNode _ fun f f' hsame => ?_
      exact congrArg (fun f : Function => { f with isLambda := true }) hsame
  | slot slot => exact .refl named _
  | callResult callee =>
      rw [value]
      cases c.returnFlow <;> exact .refl named _
  | null => exact .refl named _

theorem resembles_arguments (args : List (Option PointerSource)) :
    (arguments c st args).1.graph.Resembles named
      (GraphEntry.enterAll c.scope st.graph (argEntries args)) := by
  refine GraphEntry.resembles_foldl (fun st : State × List (Option Value) => st.1.graph)
    (fun _ => True) (fun st arg _ => ⟨?_, trivial⟩) args trivial
  cases arg with
  | none => exact .refl named _
  | some source =>
      rw [Option.toList_some, List.flatMap_singleton]
      exact resembles_value named c st.1 source

theorem resembles_addDefault (id : NodeId) (d : DefaultArg) :
    (addDefault c id st d).graph.Resembles named
      (GraphEntry.enterAll c.scope st.graph (sourceEntries d.value)) := by
  have hvalue := resembles_value named c st d.value
  rw [addDefault]
  split <;> simpa [*] using hvalue

theorem resembles_addDefaults (r : FunctionRecord) :
    (addDefaults c st r).graph.Resembles named
      (GraphEntry.enterAll c.scope st.graph (recordEntries r)) := by
  rw [addDefaults, recordEntries]
  split
  · exact .refl named _
  · have href := resembles_reference named c st r.key "default argument owner"
    refine Resembles.trans (GraphEntry.resembles_foldl State.graph (fun _ => True)
      (fun st d _ => ⟨resembles_addDefault named c st _ d, trivial⟩) r.defaultArgs trivial) ?_
    exact GraphEntry.resembles_enterAll (.refl named c.scope) href _

theorem resembles_addAssignment (a : Assignment) :
    (addAssignment c st a).graph.Resembles named
      (GraphEntry.enterAll c.scope st.graph (sourceEntries a.source)) := by
  have hvalue : (value c (place c st a.destination).1 a.source).1.graph.Resembles named
      (GraphEntry.enterAll c.scope st.graph (sourceEntries a.source)) :=
    resembles_value named c (place c st a.destination).1 a.source
  rw [addAssignment]
  dsimp only
  split <;> simpa [*] using hvalue

theorem resembles_addStaticCall (what : String) (args : List (Option Value)) (explicit : Nat)
    (callee : FunctionKey) :
    (addStaticCall c what args explicit st callee).graph.Resembles named
      (GraphEntry.enterAll c.scope st.graph [.function callee]) :=
  resembles_reference named c st callee what

theorem resembles_addSite (site : CallSite) :
    (addSite c st site).graph.Resembles named
      (GraphEntry.enterAll c.scope st.graph (siteEntries c.hierarchy site)) := by
  rw [addSite, siteEntries]
  cases site.target with
  | direct callee =>
      have href := resembles_reference named c st callee ("call from " ++ site.caller)
      have hargs := resembles_arguments named c
        (reference c st callee ("call from " ++ site.caller)).1 site.args
      exact hargs.trans (GraphEntry.resembles_enterAll (.refl named c.scope) href _)
  | virtual receiver method =>
      dsimp only
      cases c.hierarchy.dispatch receiver method with
      | error failure => exact .refl named _
      | ok d =>
          have hargs := resembles_arguments named c st site.args
          dsimp only
          rw [List.map_eq_flatMap, GraphEntry.enterAll, List.foldl_append]
          refine Resembles.trans (GraphEntry.resembles_foldl State.graph (fun _ => True)
            (fun st f _ => ⟨resembles_addStaticCall named c st _ _ _ f, trivial⟩) d.targets.toList
            trivial) ?_
          exact GraphEntry.resembles_enterAll (.refl named c.scope) hargs _
  | pointer slot => exact resembles_arguments named c (place c st slot).1 site.args
  | memberPointer slot receiver => exact resembles_arguments named c (place c st slot).1 site.args
  | implicit => exact .refl named _

/-- The constraints are set up on a graph with the entries of the facts. -/
theorem resembles_constraints (u : TranslationUnit) (g : Graph) :
    (constraints c u g).graph.Resembles named
      (GraphEntry.enterAll c.scope g (factEntries c.hierarchy u)) := by
  have hexpanded : ∀ (fs : List FunctionKey) (st : State),
      (fs.foldl (addExpansion c) st).graph = st.graph := by
    intro fs
    induction fs with
    | nil => exact fun _ => rfl
    | cons f fs ih =>
        intro st
        rw [List.foldl_cons, ih, addExpansion]
        split <;> rfl
  rw [constraints, hexpanded, factEntries, GraphEntry.enterAll, List.foldl_append,
    List.foldl_append]
  refine Resembles.trans (GraphEntry.resembles_foldl State.graph (fun _ => True)
    (fun st site _ => ⟨resembles_addSite named c st site, trivial⟩) u.callSites trivial) ?_
  refine GraphEntry.resembles_enterAll (.refl named c.scope) ?_ _
  refine Resembles.trans (GraphEntry.resembles_foldl State.graph (fun _ => True)
    (fun st a _ => ⟨resembles_addAssignment named c st a, trivial⟩) u.assignments trivial) ?_
  refine GraphEntry.resembles_enterAll (.refl named c.scope) ?_ _
  exact GraphEntry.resembles_foldl State.graph (fun _ => True)
    (fun st r _ => ⟨resembles_addDefaults named c st r, trivial⟩) u.functions trivial

end Facts

/-! ### Functions that slots hold -/

/-- The entries of a call through a slot, with what the slots of a program hold. -/
def foundEntries (c : Setting) (g : Graph) (p : Program) (site : CallSite) : List GraphEntry :=
  match indirect? site with
  | none => []
  | some (slot, kind, receiver) =>
    match p.slotId? (c.hierarchy.canonical slot) with
    | none => []
    | some id => GraphEntry.calls site.caller (targets c g p id kind receiver).toList kind .may

section Solution

variable {p p' : Program}

/-- What a slot holds decides the targets. -/
theorem targets_eq (c c' : Setting) (hc : c.hierarchy = c'.hierarchy) (hnodes : HoldsNodes g p)
    (hnodes' : HoldsNodes g' p') (hheld : heldKeys g p = heldKeys g' p') {g₁ g₁' : Graph}
    (hpre : g.keys <+: g₁.keys) (hpre' : g'.keys <+: g₁'.keys) {slot : Slot} {id id' : SlotId}
    (hid : p.slotId? slot = some id) (hid' : p'.slotId? slot = some id') (kind : EdgeKind)
    (receiver : Option String) :
    targets c g₁ p id kind receiver = targets c' g₁' p' id' kind receiver := by
  refine SortedSet.eq_of_forall_mem_iff fun t => ?_
  rw [mem_targets c hnodes hpre hid, mem_targets c' hnodes' hpre' hid', hheld, hc]

theorem resembles_resolveSite (named : Bool) (c : Setting) (hnodes : HoldsNodes g p)
    {state : Graph × FlowReport} (hpre : g.keys <+: state.1.keys) (site : CallSite) :
    (resolveSite c p state site).1.Resembles named
      (GraphEntry.enterAll c.scope state.1 (foundEntries c g p site)) := by
  rw [resolveSite, foundEntries]
  cases indirect? site with
  | none => exact .refl named _
  | some call =>
      obtain ⟨slot, kind, receiver⟩ := call
      dsimp only
      cases hid : p.slotId? (c.hierarchy.canonical slot) with
      | none => exact .refl named _
      | some id =>
          have htargets := targets_eq c c rfl hnodes hnodes rfl hpre (List.prefix_refl _) hid hid
            kind receiver
          dsimp only
          rw [← htargets, ← GraphEntry.callAll_eq]
          split
          · exact (Resembles.addDiagnostic named _ _).symm
          · exact .refl named _

theorem foundEntries_eq (c c' : Setting) (hc : c.hierarchy = c'.hierarchy)
    (hnodes : HoldsNodes g p) (hnodes' : HoldsNodes g' p') (hheld : heldKeys g p = heldKeys g' p')
    {site : CallSite}
    (hplaced : ∀ slot kind receiver, indirect? site = some (slot, kind, receiver) →
      ∃ id, p.slotId? (c.hierarchy.canonical slot) = some id)
    (hplaced' : ∀ slot kind receiver, indirect? site = some (slot, kind, receiver) →
      ∃ id, p'.slotId? (c'.hierarchy.canonical slot) = some id) :
    foundEntries c g p site = foundEntries c' g' p' site := by
  rw [foundEntries, foundEntries]
  cases hsite : indirect? site with
  | none => rfl
  | some call =>
      obtain ⟨slot, kind, receiver⟩ := call
      obtain ⟨id, hid⟩ := hplaced slot kind receiver hsite
      obtain ⟨id', hid'⟩ := hplaced' slot kind receiver hsite
      simp only [hid, hid']
      rw [← hc] at hid'
      rw [targets_eq c c' hc hnodes hnodes' hheld (List.prefix_refl _) (List.prefix_refl _) hid
        hid']

end Solution

/-- A run that succeeds, as entries: those of the facts, and those of the calls through slots with
what the least solution holds. -/
theorem exists_entries_of_run (named : Bool) {options : Options} {h : Hierarchy}
    (hwell : g.WellFormed) {g₁ : Graph} {report : FlowReport}
    (hrun : run s options false h u g = (g₁, .ok report)) :
    ∃ g₀ p, g₀.Resembles named (GraphEntry.enterAll s g (factEntries h u)) ∧ HoldsNodes g₀ p ∧
      IsLeast {F | Solves (asked h options.returnFlow u (g.features ∪ referred h u)) id F}
        (heldKeys g₀ p) ∧
      (∀ site ∈ u.callSites, ∀ slot kind receiver, indirect? site = some (slot, kind, receiver) →
        ∃ id, p.slotId? (h.canonical slot) = some id) ∧
      g₁.Resembles named (GraphEntry.enterAll s g₀
        (u.callSites.flatMap (foundEntries ⟨s, h, options.returnFlow⟩ g₀ p))) := by
  simp only [run] at hrun
  generalize hc : (⟨s, h, options.returnFlow⟩ : Setting) = c at hrun
  obtain ⟨hfacts, ks, hks, hasked⟩ := holds_constraints c u hwell
  split at hrun
  · exact absurd hrun (by simp)
  · next p fixpoint hok =>
    obtain ⟨hnodes, hleast⟩ := isLeast_heldKeys hks hfacts.wellFormed hok
    have hplaced := slotId?_of_site c hks hasked hok
    have hfound : (u.callSites.foldl (resolveSite c p)
        ((constraints c u g).graph, { fixpoint := fixpoint })).1.Resembles named
          (GraphEntry.enterAll c.scope (constraints c u g).graph
            (u.callSites.flatMap (foundEntries c (constraints c u g).graph p))) := by
      refine GraphEntry.resembles_foldl Prod.fst (fun state : Graph × FlowReport =>
        state.1.WellFormed ∧ (constraints c u g).graph.keys <+: state.1.keys) ?_ u.callSites
        ⟨hfacts.wellFormed, List.prefix_refl _⟩
      intro state site hstate
      have hadds := adds_resolveSite c hnodes hstate.1 hstate.2 site
      exact ⟨resembles_resolveSite named c hnodes hstate.2 site, hadds.wellFormed,
        hstate.2.trans hadds.keys⟩
    rw [hasked, hfacts.features] at hleast
    subst hc
    obtain ⟨rfl, -⟩ := Prod.mk.inj hrun
    exact ⟨_, p, resembles_constraints named _ u g, hnodes, hleast, hplaced, hfound⟩

/-! ### The pass -/

theorem echoes_factEntries (hu : u.Repeats u') (h : Hierarchy) :
    Echoes [] (factEntries h u) (factEntries h u') :=
  ((hu.functions.flatMap _).append (hu.assignments.flatMap _)).append (hu.callSites.flatMap _)

/-- The same facts ask for the same constraints, however often they are said. -/
theorem asked_of_alike (h : Hierarchy) (returnFlow : ReturnFlow) (hu : u.Alike u')
    (shown : Set Feature) : asked h returnFlow u (shown ∪ referred h u) =
      asked h returnFlow u' (shown ∪ referred h u') := by
  have hreferred : referred h u = referred h u' := by
    rw [referred, referred, gather_congr hu.functions fun _ => rfl,
      gather_congr hu.assignments fun _ => rfl, gather_congr hu.callSites fun _ => rfl]
  rw [hreferred]
  ext k
  simp only [asked, Set.mem_ofPred_eq, List.mem_flatMap, hu.functions, hu.assignments,
    hu.callSites]

theorem exists_run_of_repeats (hs : s.Resembles named s') (hu : u.Repeats u') {options : Options}
    {h : Hierarchy} (hwell : g.WellFormed) (hg : g.Resembles named g') {g₁ : Graph}
    {report : FlowReport} (hrun : run s options false h u g = (g₁, .ok report)) :
    ∃ g₁' report', run s' options false h u' g' = (g₁', .ok report') ∧
      g₁.Resembles named g₁' := by
  have hwell' := hg.wellFormed hwell
  have hasked := asked_of_alike h options.returnFlow hu.alike g.features
  rw [hg.features_eq] at hasked
  have hends := (exists_run_iff s options hwell).mp ⟨g₁, report, hrun⟩
  rw [hg.features_eq, hasked] at hends
  obtain ⟨g₁', report', hrun'⟩ := (exists_run_iff s' options hwell').mpr hends
  refine ⟨g₁', report', hrun', ?_⟩
  obtain ⟨g₀, p, hfacts, hnodes, hleast, hplaced, hfound⟩ := exists_entries_of_run named hwell hrun
  obtain ⟨g₀', p', hfacts', hnodes', hleast', hplaced', hfound'⟩ :=
    exists_entries_of_run named hwell' hrun'
  -- there is one least solution, so the slots hold the same on both sides
  rw [hg.features_eq, hasked] at hleast
  have hentries : u'.callSites.flatMap (foundEntries ⟨s', h, options.returnFlow⟩ g₀' p') =
      u'.callSites.flatMap (foundEntries ⟨s, h, options.returnFlow⟩ g₀ p) := by
    refine List.flatMap_congr fun site hsite => ?_
    exact foundEntries_eq _ _ rfl hnodes' hnodes (hleast'.unique hleast) (hplaced' site hsite)
      (hplaced site ((hu.alike.callSites site).mpr hsite))
  have hstart := (hfacts.trans (GraphEntry.resembles_of_echoes (echoes_factEntries hu h) hs hwell'
    hg)).trans hfacts'.symm
  have hwell₀ : g₀'.WellFormed :=
    hfacts'.symm.wellFormed (GraphEntry.wellFormed_enterAll s' hwell' _)
  rw [hentries] at hfound'
  exact (hfound.trans (GraphEntry.resembles_of_echoes (hu.callSites.flatMap _) hs hwell₀
    hstart)).trans hfound'.symm

end PointerCalls

/-! ## Lifetimes -/

namespace LifetimeCalls

/-- The entries of a lifetime event. -/
def eventEntries (h : Hierarchy) (e : LifetimeEvent) : List GraphEntry :=
  if h.contains e.className then
    GraphEntry.calls e.caller (eventTargets h e).1 .implicit (eventTargets h e).2
  else []

theorem emit_eq (s : Scope) (state : State) (caller : FunctionKey) (targets : List FunctionKey)
    (confidence : Confidence) : (emit s state caller targets confidence).1 =
      GraphEntry.enterAll s state.1 (GraphEntry.calls caller targets .implicit confidence) := by
  rw [emit, ← GraphEntry.callAll_eq]
  cases confidence <;> rfl

theorem resembles_addEvent (named : Bool) (s : Scope) (h : Hierarchy) (state : State)
    (e : LifetimeEvent) : (addEvent s h state e).1.Resembles named
      (GraphEntry.enterAll s state.1 (eventEntries h e)) := by
  rw [addEvent, eventEntries]
  split
  · rw [← emit_eq]
    exact .refl named _
  · exact (s.resembles_malformed named state.1 _).symm

section Bodies

variable {explicit explicit' : List (FunctionKey × Phase)} {state state' : State}

theorem resembles_addBody (hs : s.Resembles named s')
    (hexplicit : ∀ x, x ∈ explicit ↔ x ∈ explicit') (hg : state.1.Resembles named state'.1)
    (phase : Phase) (targets : List FunctionKey) (f : FunctionKey) :
    (addBody s explicit phase targets state f).1.Resembles named
      (addBody s' explicit' phase targets state' f).1 := by
  rw [addBody, addBody, hg.any_find?_eq]
  simp only [hexplicit]
  split
  · dsimp only
    rw [emit_eq, emit_eq]
    exact GraphEntry.resembles_enterAll hs hg _
  · exact hg

theorem resembles_addBodies (hs : s.Resembles named s') (h : Hierarchy)
    (hexplicit : ∀ x, x ∈ explicit ↔ x ∈ explicit') (hg : state.1.Resembles named state'.1)
    (c : ClassRecord) : (addBodies s h explicit state c).1.Resembles named
      (addBodies s' h explicit' state' c).1 := by
  have hbodies : ∀ (phase : Phase) (targets fs : List FunctionKey) (state state' : State),
      state.1.Resembles named state'.1 →
      (fs.foldl (addBody s explicit phase targets) state).1.Resembles named
        (fs.foldl (addBody s' explicit' phase targets) state').1 := by
    intro phase targets fs state state' hg
    exact List.foldl_rel (r := fun state state' : State => state.1.Resembles named state'.1) hg
      fun f _ _ _ hrel => resembles_addBody hs hexplicit hrel phase targets f
  exact hbodies _ _ _ _ _ (hbodies _ _ _ _ _ hg)

end Bodies

theorem resembles_run (hs : s.Resembles named s') (hu : u.Repeats u') (options : Options)
    (h : Hierarchy) (hwell : g.WellFormed) (hg : g.Resembles named g') :
    (run s options h u g).1.Resembles named (run s' options h u' g').1 := by
  rw [run, run]
  split
  · have hentries : ∀ (s : Scope) (events : List LifetimeEvent) (state : State),
        (events.foldl (addEvent s h) state).1.Resembles named
          (GraphEntry.enterAll s state.1 (events.flatMap (eventEntries h))) := by
      intro s events state
      exact GraphEntry.resembles_foldl Prod.fst (fun _ => True)
        (fun state e _ => ⟨resembles_addEvent named s h state e, trivial⟩) events trivial
    have hevents := GraphEntry.resembles_of_echoes (hu.allLifetimeEvents.flatMap (eventEntries h))
      hs (hg.wellFormed hwell) hg
    refine List.foldl_rel (r := fun state state' : State => state.1.Resembles named state'.1)
      (((hentries s _ _).trans hevents).trans (hentries s' _ _).symm) fun c _ _ _ hrel => ?_
    exact resembles_addBodies hs h hu.alike.spelledOut hrel c
  · exact hg

end LifetimeCalls

/-- All passes after the first one succeed over repeated facts, and come to the same. -/
theorem exists_passes_of_repeats (hs : s.Resembles named s') (hu : u.Repeats u')
    {options : Options} (hwell : g.WellFormed) (hg : g.Resembles named g') {g₁ g₂ : Graph}
    {h : Hierarchy} {dispatch : DispatchStats} {flow : FlowReport}
    (hvirtual : VirtualCalls.run s u g = .ok (g₁, h, dispatch))
    (hpointers : PointerCalls.run s options false h u g₁ = (g₂, .ok flow)) :
    ∃ g₁' dispatch' g₂' flow', VirtualCalls.run s' u' g' = .ok (g₁', h, dispatch') ∧
      PointerCalls.run s' options false h u' g₁' = (g₂', .ok flow') ∧
      (LifetimeCalls.run s options h u g₂).1.Resembles named
        (LifetimeCalls.run s' options h u' g₂').1 := by
  have hwell₁ := (VirtualCalls.adds_run _ hwell hvirtual).2.wellFormed
  obtain ⟨F, -, hadds⟩ := PointerCalls.adds_run _ options hwell₁ hpointers
  obtain ⟨g₁', dispatch', hvirtual', hg₁⟩ :=
    VirtualCalls.exists_run_of_repeats hs hu hwell hg hvirtual
  obtain ⟨g₂', flow', hpointers', hg₂⟩ :=
    PointerCalls.exists_run_of_repeats hs hu hwell₁ hg₁ hpointers
  exact ⟨g₁', dispatch', g₂', flow', hvirtual', hpointers',
    LifetimeCalls.resembles_run hs hu options h hadds.wellFormed hg₂⟩

/-! ## Direct calls -/

namespace DirectCalls

theorem resembles_checkArity (named : Bool) (s : Scope) (g : Graph) (arities : Arities)
    (r : FunctionRecord) : g.Resembles named (checkArity s g arities r).1 := by
  rw [checkArity]
  split
  · exact .refl named g
  · split
    · exact .refl named g
    · split
      · exact .refl named g
      · exact s.resembles_malformed named g _

theorem checkArity_snd (s s' : Scope) (g g' : Graph) (arities : Arities) (r : FunctionRecord) :
    (checkArity s g arities r).2 = (checkArity s' g' arities r).2 := by
  rw [checkArity, checkArity]
  split
  · rfl
  · split
    · rfl
    · split <;> rfl

theorem resembles_declare (hs : s.Resembles named s') {state state' : Graph × Arities}
    (hg : state.1.Resembles named state'.1) (harities : state.2 = state'.2) (r : FunctionRecord) :
    (declare s state r).1.Resembles named (declare s' state' r).1 ∧
      (declare s state r).2 = (declare s' state' r).2 := by
  have hchecked := ((resembles_checkArity named s state.1 state.2 r).symm.trans hg).trans
    (resembles_checkArity named s' state'.1 state'.2 r)
  have hfunction : (functionOf s r).shown named = (functionOf s' r).shown named :=
    Function.shown_eq_iff.mpr ⟨rfl, hs.unit⟩
  refine ⟨(hchecked.addFunction hfunction).1, ?_⟩
  show (checkArity s state.1 state.2 r).2 = (checkArity s' state'.1 state'.2 r).2
  rw [harities]
  exact checkArity_snd s s' _ _ _ r

theorem resembles_linkDeclared (hs : s.Resembles named s') (hg : g.Resembles named g')
    (key base : FunctionKey) :
    (linkDeclared s key g base).Resembles named (linkDeclared s' key g' base) :=
  (Scope.resembles_reference hs hg base _ _).1.linkOverride key base

theorem resembles_addSite (hs : s.Resembles named s') {state state' : Graph × Nat}
    (hg : state.1.Resembles named state'.1) (site : CallSite) :
    (addSite s state site).1.Resembles named (addSite s' state' site).1 := by
  rw [addSite, addSite]
  cases site.target with
  | direct callee =>
      dsimp only
      rw [GraphEntry.callAll_eq, GraphEntry.callAll_eq]
      exact GraphEntry.resembles_enterAll hs hg _
  | _ => exact hg

theorem resembles_run (hs : s.Resembles named s') (hg : g.Resembles named g')
    (u : TranslationUnit) (name : String) :
    (run s u g).1.Resembles named (run s' { u with name := name } g').1 := by
  have hdeclared := List.foldl_rel (l := u.functions) (a := (g, [])) (b := (g', []))
    (r := fun state state' : Graph × Arities =>
      state.1.Resembles named state'.1 ∧ state.2 = state'.2) ⟨hg, rfl⟩
    fun r _ _ _ hrel => resembles_declare hs hrel.1 hrel.2 r
  have hlinked := List.foldl_rel (l := u.functions) (r := Graph.Resembles named) hdeclared.1
    fun r _ _ _ hrel => List.foldl_rel (l := r.overrides) (r := Graph.Resembles named) hrel
      fun base _ _ _ hrel => resembles_linkDeclared hs hrel r.key base
  exact List.foldl_rel (l := u.callSites) (r := fun state state' : Graph × Nat =>
    state.1.Resembles named state'.1) hlinked fun site _ _ _ hrel => resembles_addSite hs hrel site

end DirectCalls

/-! ## Units -/

namespace UnitGraph

/-- A unit under another name and another index has the same graph, up to the marks of the unit. -/
theorem exists_analyse_rename {options : Options} {cancelled : Bool} {i : Nat} {p : UnitGraph}
    (hp : analyse options cancelled i u = .ok p) (j : Nat) (name : String) :
    ∃ q, analyse options cancelled j { u with name := name } = .ok q ∧
      p.graph.Resembles false q.graph := by
  have hs : Scope.Resembles false { unit := u.name } { unit := name } := ⟨rfl, rfl⟩
  have hu := TranslationUnit.Repeats.rename u name
  rw [analyse] at hp ⊢
  split at hp
  · exact absurd hp (by simp)
  · next hcancelled =>
    rw [if_neg hcancelled]
    obtain rfl : cancelled = false := Bool.eq_false_iff.mpr hcancelled
    have hdirect := DirectCalls.resembles_run hs (.refl false .empty) u name
    have hwell := (DirectCalls.adds_run { unit := u.name } wellFormed_empty u).wellFormed
    dsimp only at hp ⊢
    split at hp
    · exact absurd hp (by simp)
    · next g₁ h dispatch hvirtual =>
      split at hp
      · exact absurd hp (by simp)
      · next g₂ flow hpointers =>
        obtain ⟨g₁', dispatch', g₂', flow', hvirtual', hpointers', hgraph⟩ :=
          exists_passes_of_repeats hs hu hwell hdirect hvirtual hpointers
        obtain rfl := Except.ok.inj hp
        rw [hvirtual']
        dsimp only
        rw [hpointers']
        exact ⟨_, rfl, hgraph⟩

end UnitGraph

end CallGraphs
