import CallGraphs.Proofs.Analysis.Derivation

/-!
# Calls that are reported

A call through a slot may have no target that is known, or not all of them: the
slot holds nothing, or it may hold the result of a call that is not followed
(`Unsettled`).  The pass for pointers reports such a call on the graph, and
nothing else touches these reports, neither the operations on graphs nor the
other passes.  So the reports of a graph say exactly which calls the facts leave
unsettled (`PointerCalls.unresolved_run`).
-/

namespace CallGraphs

open CallGraphs.Flow

/-- A call through a slot is reported if the slots hold so much: under which name, and why. -/
inductive Unsettled (h : Hierarchy) (held : Family FunctionKey) (site : CallSite) :
    String → UnresolvedReason → Prop
  | returnValue {slot : Slot} {kind : EdgeKind} {receiver : Option String} :
      PointerCalls.indirect? site = some (slot, kind, receiver) →
      .blocked ∈ held (h.canonical slot) →
      Unsettled h held site (site.label.getD slot.text) .returnValue
  | emptyAliasSet {slot : Slot} {kind : EdgeKind} {receiver : Option String} :
      PointerCalls.indirect? site = some (slot, kind, receiver) → held (h.canonical slot) = ∅ →
      Unsettled h held site (site.label.getD slot.text) .emptyAliasSet

/-! ## Operations that report no call -/

namespace Graph

/-- The graph reports a call through a slot. -/
def Unresolved (g : Graph) (caller : FunctionKey) (text : String) (reason : UnresolvedReason) :
    Prop :=
  ∃ d ∈ g.diagnostics, d.finding = .unresolvedCall caller text reason

variable {g g' : Graph} {caller : FunctionKey} {text : String} {reason : UnresolvedReason}

theorem unresolved_iff_mem_unresolvedCalls : g.Unresolved caller text reason ↔
    ∃ d ∈ g.unresolvedCalls, d.finding = .unresolvedCall caller text reason := by
  refine exists_congr fun d => ?_
  rw [unresolvedCalls, List.mem_filter, and_assoc]
  refine and_congr_right fun _ => (and_iff_right_of_imp fun hfinding => ?_).symm
  rw [Diagnostic.isUnresolvedCall, hfinding]

theorem unresolved_congr (hsame : g'.unresolvedCalls = g.unresolvedCalls) :
    g'.Unresolved caller text reason ↔ g.Unresolved caller text reason := by
  rw [unresolved_iff_mem_unresolvedCalls, hsame, unresolved_iff_mem_unresolvedCalls]

theorem unresolved_addDiagnostic (d : Diagnostic) :
    (g.addDiagnostic d).Unresolved caller text reason ↔
      g.Unresolved caller text reason ∨ d.finding = .unresolvedCall caller text reason := by
  rw [addDiagnostic]
  split
  · next hmem => exact (or_iff_left_of_imp fun hfinding => ⟨d, hmem, hfinding⟩).symm
  · simp [Unresolved, or_and_right, exists_or]

/-- What leaves the reports as they are at each step leaves them as they are. -/
theorem unresolvedCalls_foldl {σ α : Type} (graph : σ → Graph) {step : σ → α → σ}
    (hstep : ∀ st x, (graph (step st x)).unresolvedCalls = (graph st).unresolvedCalls)
    (l : List α) (st : σ) :
    (graph (l.foldl step st)).unresolvedCalls = (graph st).unresolvedCalls := by
  induction l generalizing st with
  | nil => rfl
  | cons x l ih => exact (ih (step st x)).trans (hstep st x)

@[simp]
theorem unresolvedCalls_modifyNode (g : Graph) (id : NodeId) (change : Function → Function) :
    (g.modifyNode id change).unresolvedCalls = g.unresolvedCalls := rfl

@[simp]
theorem unresolvedCalls_addFunction (g : Graph) (f : Function) :
    (g.addFunction f).1.unresolvedCalls = g.unresolvedCalls := by
  rw [addFunction]
  split <;> rfl

@[simp]
theorem unresolvedCalls_ensureNode (g : Graph) (key : FunctionKey) :
    (g.ensureNode key).1.unresolvedCalls = g.unresolvedCalls := by
  rw [ensureNode]
  split <;> simp

@[simp]
theorem unresolvedCalls_linkOverride (g : Graph) (overrider base : FunctionKey) :
    (g.linkOverride overrider base).unresolvedCalls = g.unresolvedCalls := by
  rw [linkOverride]
  dsimp only
  split <;> simp

@[simp]
theorem unresolvedCalls_insertEdge (g : Graph) (e : Edge) (origin : Option String) :
    (g.insertEdge e origin).1.unresolvedCalls = g.unresolvedCalls := by
  rw [insertEdge]
  split <;> rfl

@[simp]
theorem unresolvedCalls_addCall (g : Graph) (c : Call) :
    (g.addCall c).unresolvedCalls = g.unresolvedCalls := by
  simp [addCall]

theorem unresolvedCalls_addDiagnostic (g : Graph) {d : Diagnostic}
    (hd : d.isUnresolvedCall = false) :
    (g.addDiagnostic d).unresolvedCalls = g.unresolvedCalls := by
  rw [addDiagnostic]
  split
  · rfl
  · simp [unresolvedCalls, hd]

end Graph

namespace Scope

variable (s : Scope)

@[simp]
theorem unresolvedCalls_malformed (g : Graph) (detail : String) :
    (s.malformed g detail).unresolvedCalls = g.unresolvedCalls := by
  rw [malformed]
  split
  · rfl
  · exact g.unresolvedCalls_addDiagnostic rfl

@[simp]
theorem unresolvedCalls_reference (g : Graph) (key : FunctionKey) (what : String) :
    (s.reference g key what).1.unresolvedCalls = g.unresolvedCalls := by
  rw [reference, Graph.ensureStub]
  cases g.nodeId? key with
  | some id => rfl
  | none =>
      dsimp only
      split <;> simp

@[simp]
theorem unresolvedCalls_call (g : Graph) (caller callee : FunctionKey) (kind : EdgeKind)
    (confidence : Confidence) :
    (s.call g caller callee kind confidence).1.unresolvedCalls = g.unresolvedCalls := by
  simp [call]

@[simp]
theorem unresolvedCalls_callAll (g : Graph) (caller : FunctionKey) (callees : List FunctionKey)
    (kind : EdgeKind) (confidence : Confidence) :
    (s.callAll g caller callees kind confidence).1.unresolvedCalls = g.unresolvedCalls := by
  refine Graph.unresolvedCalls_foldl Prod.fst (fun st callee => ?_) callees (g, 0)
  have hcall := s.unresolvedCalls_call st.1 caller callee kind confidence
  rcases hres : s.call st.1 caller callee kind confidence with ⟨g', isNew⟩
  rw [hres] at hcall
  cases isNew <;> simpa only [hres] using hcall

end Scope

/-! ## Passes that report no call -/

namespace VirtualCalls

variable (s : Scope)

theorem unresolvedCalls_markVirtual (g : Graph) (f : FunctionKey) :
    (markVirtual g f).unresolvedCalls = g.unresolvedCalls := by
  rw [markVirtual]
  split <;> rfl

theorem unresolvedCalls_record (h : Hierarchy) (g : Graph) :
    (record s h g).unresolvedCalls = g.unresolvedCalls :=
  (Graph.unresolvedCalls_foldl id (fun _ _ => Graph.unresolvedCalls_linkOverride _ _ _) _ _).trans
    ((Graph.unresolvedCalls_foldl id unresolvedCalls_markVirtual _ _).trans
      (Graph.unresolvedCalls_foldl id s.unresolvedCalls_malformed _ _))

theorem unresolvedCalls_addSite (h : Hierarchy) (state : Graph × DispatchStats) (site : CallSite) :
    (addSite s h state site).1.unresolvedCalls = state.1.unresolvedCalls := by
  rw [addSite]
  split
  · dsimp only
    split
    · split <;> simp
    · simp
  · rfl

theorem unresolvedCalls_run {u : TranslationUnit} {g g' : Graph} {h : Hierarchy}
    {stats : DispatchStats} (hrun : run s u g = .ok (g', h, stats)) :
    g'.unresolvedCalls = g.unresolvedCalls := by
  rw [run] at hrun
  split at hrun
  · exact absurd hrun (by simp)
  · next h' hbuild =>
    obtain ⟨rfl, -⟩ := Prod.mk.inj (Except.ok.inj hrun)
    exact (Graph.unresolvedCalls_foldl Prod.fst (unresolvedCalls_addSite s h') _ _).trans
      (unresolvedCalls_record s h' g)

end VirtualCalls

namespace LifetimeCalls

variable (s : Scope) (h : Hierarchy)

theorem unresolvedCalls_emit (state : State) (caller : FunctionKey) (targets : List FunctionKey)
    (confidence : Confidence) :
    (emit s state caller targets confidence).1.unresolvedCalls = state.1.unresolvedCalls := by
  cases confidence <;> exact s.unresolvedCalls_callAll _ _ _ _ _

theorem unresolvedCalls_addEvent (state : State) (e : LifetimeEvent) :
    (addEvent s h state e).1.unresolvedCalls = state.1.unresolvedCalls := by
  rw [addEvent]
  split
  · exact unresolvedCalls_emit s state _ _ _
  · exact s.unresolvedCalls_malformed _ _

theorem unresolvedCalls_addBody (explicit : List (FunctionKey × Phase)) (phase : Phase)
    (targets : List FunctionKey) (state : State) (f : FunctionKey) :
    (addBody s explicit phase targets state f).1.unresolvedCalls = state.1.unresolvedCalls := by
  rw [addBody]
  split
  · exact unresolvedCalls_emit s state _ _ _
  · rfl

theorem unresolvedCalls_addBodies (explicit : List (FunctionKey × Phase)) (state : State)
    (c : ClassRecord) :
    (addBodies s h explicit state c).1.unresolvedCalls = state.1.unresolvedCalls :=
  (Graph.unresolvedCalls_foldl Prod.fst (unresolvedCalls_addBody s explicit _ _) _ _).trans
    (Graph.unresolvedCalls_foldl Prod.fst (unresolvedCalls_addBody s explicit _ _) _ _)

theorem unresolvedCalls_run (options : Options) (u : TranslationUnit) (g : Graph) :
    (run s options h u g).1.unresolvedCalls = g.unresolvedCalls := by
  rw [run]
  split
  · exact (Graph.unresolvedCalls_foldl Prod.fst (unresolvedCalls_addBodies s h _) _ _).trans
      (Graph.unresolvedCalls_foldl Prod.fst (unresolvedCalls_addEvent s h) _ _)
  · rfl

end LifetimeCalls

/-! ## The pass that reports calls -/

namespace PointerCalls

section Constraints

variable (c : Setting) (st : State)

@[simp]
theorem unresolvedCalls_reference (key : FunctionKey) (what : String) :
    (reference c st key what).1.graph.unresolvedCalls = st.graph.unresolvedCalls :=
  c.scope.unresolvedCalls_reference st.graph key what

@[simp]
theorem unresolvedCalls_place (slot : Slot) :
    (place c st slot).1.graph.unresolvedCalls = st.graph.unresolvedCalls := rfl

@[simp]
theorem unresolvedCalls_value (source : PointerSource) :
    (value c st source).1.graph.unresolvedCalls = st.graph.unresolvedCalls := by
  cases source with
  | function key => exact unresolvedCalls_reference c st key _
  | lambda key => exact unresolvedCalls_reference c st key _
  | slot slot => rfl
  | callResult callee =>
      rw [value]
      cases c.returnFlow <;> rfl
  | null => rfl

@[simp]
theorem unresolvedCalls_arguments (args : List (Option PointerSource)) :
    (arguments c st args).1.graph.unresolvedCalls = st.graph.unresolvedCalls := by
  refine Graph.unresolvedCalls_foldl (fun st : State × List (Option Value) => st.1.graph)
    (fun st arg => ?_) args (st, [])
  cases arg with
  | some source => exact unresolvedCalls_value c st.1 source
  | none => rfl

theorem unresolvedCalls_addDefault (id : NodeId) (d : DefaultArg) :
    (addDefault c id st d).graph.unresolvedCalls = st.graph.unresolvedCalls := by
  have hvalue := unresolvedCalls_value c st d.value
  rw [addDefault]
  split <;> simpa [*] using hvalue

theorem unresolvedCalls_addDefaults (r : FunctionRecord) :
    (addDefaults c st r).graph.unresolvedCalls = st.graph.unresolvedCalls := by
  rw [addDefaults]
  split
  · rfl
  · refine (Graph.unresolvedCalls_foldl State.graph ?_ _ _).trans
      (unresolvedCalls_reference c st r.key _)
    exact fun st d => unresolvedCalls_addDefault c st _ d

theorem unresolvedCalls_addAssignment (a : Assignment) :
    (addAssignment c st a).graph.unresolvedCalls = st.graph.unresolvedCalls := by
  have hvalue := unresolvedCalls_value c (place c st a.destination).1 a.source
  rw [addAssignment]
  dsimp only
  split <;> simpa [*] using hvalue

theorem unresolvedCalls_addSite (site : CallSite) :
    (addSite c st site).graph.unresolvedCalls = st.graph.unresolvedCalls := by
  rw [addSite]
  split
  · simp
  · split
    · refine (Graph.unresolvedCalls_foldl State.graph (fun st callee => ?_) _ _).trans
        (unresolvedCalls_arguments c st site.args)
      exact unresolvedCalls_reference c st callee _
    · rfl
  · simp [addIndirectCall]
  · simp [addIndirectCall]
  · rfl

theorem unresolvedCalls_addExpansion (f : FunctionKey) :
    (addExpansion c st f).graph.unresolvedCalls = st.graph.unresolvedCalls := by
  rw [addExpansion]
  split <;> rfl

theorem unresolvedCalls_constraints (u : TranslationUnit) (g : Graph) :
    (constraints c u g).graph.unresolvedCalls = g.unresolvedCalls := by
  have hdefaults := Graph.unresolvedCalls_foldl State.graph (unresolvedCalls_addDefaults c)
    u.functions { graph := g }
  have hassigned := Graph.unresolvedCalls_foldl State.graph (unresolvedCalls_addAssignment c)
    u.assignments (u.functions.foldl (addDefaults c) { graph := g })
  have hcalled := Graph.unresolvedCalls_foldl State.graph (unresolvedCalls_addSite c) u.callSites
  have hexpanded := Graph.unresolvedCalls_foldl State.graph (unresolvedCalls_addExpansion c)
    c.hierarchy.virtuals.toList
  rw [constraints, hexpanded, hcalled, hassigned, hdefaults]

end Constraints

/-! ### Slots that are called through -/

/-- A slot that is called through has a place once the program is solved. -/
theorem slotId?_of_callThrough {st : State} {ks : List (Constraint FunctionKey)}
    (hst : Holds st ks) {names : List FunctionKey} {limit : Option Nat} {cancelled : Bool}
    {p : Program} {stats : FixpointStats}
    (hok : st.program.solve names limit cancelled = (p, .ok stats)) {slot : Slot}
    {args : List (Option (Origin FunctionKey))} {explicit : Nat} {expand : Bool}
    (hmem : .callThrough slot args explicit expand ∈ ks) : ∃ id, p.slotId? slot = some id := by
  obtain ⟨cs, hbuilt, -, rfl⟩ := hst
  obtain ⟨k, hk, heq⟩ := List.mem_map.mp hmem
  cases k with
  | callThrough slot' args' explicit' expand' =>
      obtain ⟨rfl, -⟩ := Constraint.callThrough.inj heq
      have hrep := hbuilt.represents
      have hsolved := stage_solve hrep.valid hrep.fresh (by rw [hok])
      rw [hok] at hsolved
      -- only copies of a slot to itself are left out of a program, and solving keeps all places
      obtain hk | ⟨key, hk⟩ := hrep.complete _ hk
      · obtain ⟨call, hcall, rfl, -⟩ := Program.mem_constraints_callThrough.mp hk
        have hplace := Program.getElem?_keyAt (hrep.valid.calls call hcall).1
        exact ⟨call.through, Program.slotId?_of_isPrefix hsolved.follows.keys
          (Program.slotId?_of_getElem? hrep.valid.nodup hplace)⟩
      · exact absurd hk (by simp)
  | _ => exact absurd heq (by simp [Constraint.map])

/-- The slots that the sites of a unit call through have places. -/
theorem slotId?_of_site (c : Setting) {u : TranslationUnit} {shown : Set Feature} {st : State}
    {ks : List (Constraint FunctionKey)} (hst : Holds st ks)
    (hasked : {k | k ∈ ks} = asked c.hierarchy c.returnFlow u shown) {names : List FunctionKey}
    {limit : Option Nat} {cancelled : Bool} {p : Program} {stats : FixpointStats}
    (hok : st.program.solve names limit cancelled = (p, .ok stats)) :
    ∀ site ∈ u.callSites, ∀ slot kind receiver, indirect? site = some (slot, kind, receiver) →
      ∃ id, p.slotId? (c.hierarchy.canonical slot) = some id := by
  intro site hsite slot kind receiver hindirect
  have hmem := callThrough_mem_asked c.hierarchy c.returnFlow shown hsite hindirect
  rw [← hasked] at hmem
  exact slotId?_of_callThrough hst hok hmem

/-! ### Sites -/

section Sites

variable (c : Setting) {g : Graph} {p : Program} {caller : FunctionKey} {text : String}
  {reason : UnresolvedReason}

theorem blocked_mem_heldKeys {slot : Slot} {id : SlotId} (hid : p.slotId? slot = some id) :
    .blocked ∈ heldKeys g p slot ↔ p.isBlocked id = true := by
  constructor
  · rintro ⟨x, ⟨id', hid', hx⟩, heq⟩
    obtain rfl := Option.some.inj (hid.symm.trans hid')
    cases x with
    | function n => exact absurd heq (by simp [Item.map])
    | blocked => exact hx
  · exact fun hblocked => ⟨.blocked, ⟨id, hid, hblocked⟩, rfl⟩

theorem self_mem_candidates (h : Hierarchy) (kind : EdgeKind) (receiver : Option String)
    (f : FunctionKey) : f ∈ candidates h kind receiver f := by
  cases kind <;> exact List.mem_cons_self

/-- A call has no target if and only if its slot holds no function. -/
theorem isEmpty_targets_iff (hnodes : HoldsNodes g p) {g' : Graph} (hpre : g.keys <+: g'.keys)
    {slot : Slot} {id : SlotId} (hid : p.slotId? slot = some id) (kind : EdgeKind)
    (receiver : Option String) : (targets c g' p id kind receiver).isEmpty = true ↔
      ∀ f, .function f ∉ heldKeys g p slot := by
  rw [SortedSet.isEmpty, List.isEmpty_iff, List.eq_nil_iff_forall_not_mem]
  simp only [← SortedSet.mem_def, mem_targets c hnodes hpre hid]
  constructor
  · exact fun hnone f hf => hnone f ⟨f, hf, self_mem_candidates _ _ _ _⟩
  · rintro hnone t ⟨f, hf, -⟩
    exact hnone f hf

theorem eq_empty_iff {S : Set (Item FunctionKey)} :
    S = ∅ ↔ .blocked ∉ S ∧ ∀ f, .function f ∉ S := by
  constructor
  · rintro rfl
    exact ⟨Set.notMem_empty _, fun f => Set.notMem_empty _⟩
  · rintro ⟨hblocked, hfunction⟩
    refine Set.eq_empty_of_forall_notMem fun x hx => ?_
    cases x with
    | function f => exact hfunction f hx
    | blocked => exact hblocked hx

/-- What is not settled, in terms of the program. -/
theorem unsettled_iff (hnodes : HoldsNodes g p) {g' : Graph} (hpre : g.keys <+: g'.keys)
    {site : CallSite} {slot : Slot} {kind : EdgeKind} {receiver : Option String}
    (hsite : indirect? site = some (slot, kind, receiver)) {id : SlotId}
    (hid : p.slotId? (c.hierarchy.canonical slot) = some id) :
    Unsettled c.hierarchy (heldKeys g p) site text reason ↔
      ((targets c g' p id kind receiver).isEmpty || p.isBlocked id) = true ∧
        text = site.label.getD slot.text ∧
        reason = if p.isBlocked id then .returnValue else .emptyAliasSet := by
  have hblocked := blocked_mem_heldKeys (g := g) hid
  have hempty := isEmpty_targets_iff c hnodes hpre hid kind receiver
  constructor
  · intro hunsettled
    cases hunsettled with
    | returnValue hsite' hmem =>
        obtain ⟨rfl, -⟩ := Prod.mk.inj (Option.some.inj (hsite.symm.trans hsite'))
        simp [hblocked.mp hmem]
    | emptyAliasSet hsite' hnone =>
        obtain ⟨rfl, -⟩ := Prod.mk.inj (Option.some.inj (hsite.symm.trans hsite'))
        obtain ⟨hfree, hnone⟩ := eq_empty_iff.mp hnone
        simp [hempty.mpr hnone, Bool.eq_false_of_not_eq_true (hfree ∘ hblocked.mpr)]
  · rintro ⟨hreported, rfl, rfl⟩
    split
    · next hyes => exact .returnValue hsite (hblocked.mpr hyes)
    · next hno =>
      have hnone := hempty.mp (by simpa [hno] using hreported)
      exact .emptyAliasSet hsite (eq_empty_iff.mpr ⟨hno ∘ hblocked.mp, hnone⟩)

/-- A site is reported if and only if it is not settled. -/
theorem unresolved_resolveSite (hnodes : HoldsNodes g p) {state : Graph × FlowReport}
    (hpre : g.keys <+: state.1.keys) {site : CallSite}
    (hplaced : ∀ slot kind receiver, indirect? site = some (slot, kind, receiver) →
      ∃ id, p.slotId? (c.hierarchy.canonical slot) = some id) :
    (resolveSite c p state site).1.Unresolved caller text reason ↔
      state.1.Unresolved caller text reason ∨
        site.caller = caller ∧ Unsettled c.hierarchy (heldKeys g p) site text reason := by
  rw [resolveSite]
  cases hsite : indirect? site with
  | none =>
      refine (or_iff_left ?_).symm
      rintro ⟨-, hunsettled⟩
      cases hunsettled with
      | returnValue hsite' _ => exact absurd (hsite.symm.trans hsite') (by simp)
      | emptyAliasSet hsite' _ => exact absurd (hsite.symm.trans hsite') (by simp)
  | some data =>
      obtain ⟨slot, kind, receiver⟩ := data
      obtain ⟨id, hid⟩ := hplaced slot kind receiver hsite
      have hcalls := c.scope.unresolvedCalls_callAll state.1 site.caller
        (targets c state.1 p id kind receiver).toList kind .may
      rw [unsettled_iff c hnodes hpre hsite hid]
      simp only [hid]
      split
      · next hreported =>
        rw [Graph.unresolved_addDiagnostic, Graph.unresolved_congr hcalls]
        simp only [hreported, true_and, Finding.unresolvedCall.injEq, eq_comm (a := text),
          eq_comm (a := reason)]
      · next hsettled =>
        rw [Graph.unresolved_congr hcalls]
        simp [hsettled]

theorem unresolved_foldl_resolveSite (hnodes : HoldsNodes g p) {sites : List CallSite}
    (hplaced : ∀ site ∈ sites, ∀ slot kind receiver, indirect? site = some (slot, kind, receiver) →
      ∃ id, p.slotId? (c.hierarchy.canonical slot) = some id) {state : Graph × FlowReport}
    (hg : state.1.WellFormed) (hpre : g.keys <+: state.1.keys) :
    (sites.foldl (resolveSite c p) state).1.Unresolved caller text reason ↔
      state.1.Unresolved caller text reason ∨
        ∃ site ∈ sites, site.caller = caller ∧
          Unsettled c.hierarchy (heldKeys g p) site text reason := by
  induction sites generalizing state with
  | nil => simp
  | cons site sites ih =>
      have hadds := adds_resolveSite c hnodes hg hpre site
      rw [List.foldl_cons, ih (fun site' hmem => hplaced site' (List.mem_cons_of_mem _ hmem))
        hadds.wellFormed (hpre.trans hadds.keys),
        unresolved_resolveSite c hnodes hpre (hplaced site List.mem_cons_self)]
      simp [or_assoc]

end Sites

/-- The pass reports the calls that are not settled in the least solution of the constraints. -/
theorem unresolved_run {s : Scope} {options : Options} {cancelled : Bool} {h : Hierarchy}
    {u : TranslationUnit} {g g' : Graph} {report : FlowReport} (hg : g.WellFormed)
    (hrun : run s options cancelled h u g = (g', .ok report)) {F : Family FunctionKey}
    (hF : IsLeast {F | Solves (asked h options.returnFlow u (g.features ∪ referred h u)) id F} F)
    {caller : FunctionKey} {text : String} {reason : UnresolvedReason} :
    g'.Unresolved caller text reason ↔ g.Unresolved caller text reason ∨
      ∃ site ∈ u.callSites, site.caller = caller ∧ Unsettled h F site text reason := by
  simp only [run] at hrun
  generalize hc : (⟨s, h, options.returnFlow⟩ : Setting) = c at hrun
  obtain ⟨hfacts, ks, hks, hasked⟩ := holds_constraints c u hg
  split at hrun
  · exact absurd hrun (by simp)
  · next p fixpoint hok =>
    obtain ⟨hnodes, hleast⟩ := isLeast_heldKeys hks hfacts.wellFormed hok
    have hplaced := slotId?_of_site c hks hasked hok
    rw [hasked, hfacts.features] at hleast
    subst hc
    obtain ⟨rfl, -⟩ := Prod.mk.inj hrun
    -- there is one least solution, so what the program holds is what was given
    rw [unresolved_foldl_resolveSite _ hnodes hplaced hfacts.wellFormed (List.prefix_refl _),
      Graph.unresolved_congr (unresolvedCalls_constraints _ u g), hleast.unique hF]

end PointerCalls

/-- A call through a slot that has no target is not settled. -/
theorem exists_unsettled {h : Hierarchy} {held : Family FunctionKey} {site : CallSite} {slot : Slot}
    {kind : EdgeKind} {receiver : Option String}
    (hsite : PointerCalls.indirect? site = some (slot, kind, receiver))
    (hnone : ∀ target, ¬ SiteCalls h held site target kind .may) :
    ∃ reason, Unsettled h held site (site.label.getD slot.text) reason := by
  have hempty : ∀ f, .function f ∉ held (h.canonical slot) := by
    intro f hf
    refine hnone f (siteCalls_of_indirect (a := site.caller) ?_).2
    rw [PointerCalls.ofIndirect, hsite]
    exact ⟨f, f, hf, PointerCalls.self_mem_candidates _ _ _ _, Or.inr (Or.inr rfl)⟩
  by_cases hblocked : .blocked ∈ held (h.canonical slot)
  · exact ⟨_, .returnValue hsite hblocked⟩
  · exact ⟨_, .emptyAliasSet hsite (PointerCalls.eq_empty_iff.mpr ⟨hblocked, hempty⟩)⟩

/-- After all passes a graph reports what it reported before, and the calls that the resolution of
the facts leaves unsettled. -/
theorem Resolution.unresolved_iff {s : Scope} {options : Options} {cancelled : Bool}
    {u : TranslationUnit} {shown : Set Feature} {g g₁ g₂ : Graph} {h : Hierarchy}
    {dispatch : DispatchStats} {flow : FlowReport} (r : Resolution options u shown)
    (hg : g.WellFormed) (hshown : g.features = shown)
    (hvirtual : VirtualCalls.run s u g = .ok (g₁, h, dispatch))
    (hpointers : PointerCalls.run s options cancelled h u g₁ = (g₂, .ok flow))
    {caller : FunctionKey} {text : String} {reason : UnresolvedReason} :
    (LifetimeCalls.run s options h u g₂).1.Unresolved caller text reason ↔
      g.Unresolved caller text reason ∨ ∃ site ∈ u.callSites, site.caller = caller ∧
        Unsettled r.hierarchy r.held site text reason := by
  subst hshown
  obtain ⟨hbuild, hfirst⟩ := VirtualCalls.adds_run s hg hvirtual
  obtain rfl := Except.ok.inj (r.build.symm.trans hbuild)
  have hleast := r.isLeast
  rw [← hfirst.features] at hleast
  rw [Graph.unresolved_congr (LifetimeCalls.unresolvedCalls_run s _ options u g₂),
    PointerCalls.unresolved_run hfirst.wellFormed hpointers hleast,
    Graph.unresolved_congr (VirtualCalls.unresolvedCalls_run s hvirtual)]

end CallGraphs
