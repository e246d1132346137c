import CallGraphs.Analysis.DirectCalls
import CallGraphs.Analysis.LifetimeCalls
import CallGraphs.Analysis.VirtualCalls
import CallGraphs.Proofs.Graph.Features

/-!
# What the passes add

The passes for direct calls, virtual calls and lifetimes, by the features that
they add to a graph.  The first two add what the facts and the hierarchy give,
whatever the graph holds.  The pass for lifetimes also asks which functions
have a body, so what it adds grows with the bodies in the graph.
-/

namespace CallGraphs

open CallGraphs.Graph

/-! ## Direct calls -/

namespace DirectCalls

variable (s : Scope) {g : Graph}

/-- What a record of a function shows. -/
def ofRecord (r : FunctionRecord) : Set Feature :=
  {x | x = .node r.key ∨ r.defined = true ∧ x = .body r.key}

/-- What the overrides that a record declares show. -/
def ofOverrides (r : FunctionRecord) : Set Feature :=
  gather r.overrides fun base => {.node r.key, .node base}

/-- What a direct call shows. -/
def ofSite (site : CallSite) : Set Feature :=
  match site.target with
  | .direct callee => Scope.ofCalls site.caller [callee] .direct .definite
  | _ => ∅

/-- What the first pass adds. -/
def added (u : TranslationUnit) : Set Feature :=
  gather u.functions ofRecord ∪ gather u.functions ofOverrides ∪ gather u.callSites ofSite

theorem adds_checkArity (hg : g.WellFormed) (arities : Arities) (r : FunctionRecord) :
    Adds g (checkArity s g arities r).1 ∅ := by
  rw [checkArity]
  split
  · exact .refl hg
  · split
    · exact .refl hg
    · split
      · exact .refl hg
      · exact s.adds_malformed hg _

theorem adds_declare {state : Graph × Arities} (hg : state.1.WellFormed) (r : FunctionRecord) :
    Adds state.1 (declare s state r).1 (ofRecord r) := by
  have hcheck := adds_checkArity s hg state.2 r
  have hadd := hcheck.trans (adds_addFunction hcheck.wellFormed (functionOf s r))
  rw [Set.empty_union] at hadd
  exact hadd

theorem adds_linkDeclared (hg : g.WellFormed) (key base : FunctionKey) :
    Adds g (linkDeclared s key g base) {.node key, .node base} := by
  have href := s.located_reference hg base ("override of " ++ key)
  refine (href.toAdds.trans (adds_linkOverride href.wellFormed key base)).congr ?_
  ext x
  simp only [Set.mem_union, Set.mem_insert_iff, Set.mem_singleton_iff]
  tauto

theorem adds_addSite {state : Graph × Nat} (hg : state.1.WellFormed) (site : CallSite) :
    Adds state.1 (addSite s state site).1 (ofSite site) := by
  unfold addSite ofSite
  cases site.target with
  | direct callee => exact s.adds_callAll hg site.caller [callee] .direct .definite
  | _ => exact .refl hg

theorem adds_run (hg : g.WellFormed) (u : TranslationUnit) : Adds g (run s u g).1 (added u) := by
  have hdeclared := Adds.foldl_state (l := u.functions) Prod.fst (declare s) (g, [])
    (fun st r hst => adds_declare s hst r) hg
  have hlinked := Adds.foldl_graph (l := u.functions)
    (fun g r => r.overrides.foldl (linkDeclared s r.key) g)
    (fun g r hg => Adds.foldl_graph (linkDeclared s r.key)
      (fun g base hg => adds_linkDeclared s hg r.key base) hg) hdeclared.wellFormed
  have hcalled := Adds.foldl_state (l := u.callSites) Prod.fst (addSite s) (_, 0)
    (fun st site hst => adds_addSite s hst site) hlinked.wellFormed
  exact (hdeclared.trans hlinked).trans hcalled

end DirectCalls

/-! ## Virtual calls -/

namespace VirtualCalls

variable (s : Scope) (h : Hierarchy) {g : Graph}

/-- What the override relation shows. -/
def ofLinks (h : Hierarchy) : Set Feature :=
  gather h.overrides.toList fun o => {.node o.overrider, .node o.base}

/-- What a virtual call shows. -/
def ofSite (h : Hierarchy) (site : CallSite) : Set Feature :=
  match site.target with
  | .virtual receiver method =>
    match h.dispatch receiver method with
    | .ok d => Scope.ofCalls site.caller d.targets.toList .virtual d.confidence
    | .error _ => Scope.ofCall site.caller (standIn receiver method) .virtual .definite
  | _ => ∅

/-- What the second pass adds. -/
def added (h : Hierarchy) (u : TranslationUnit) : Set Feature :=
  ofLinks h ∪ gather u.callSites (ofSite h)

theorem adds_markVirtual (hg : g.WellFormed) (f : FunctionKey) : Adds g (markVirtual g f) ∅ := by
  rw [markVirtual]
  split
  · exact adds_modifyNode_of_sameBody hg _ _ (fun _ => rfl) fun _ => rfl
  · exact .refl hg

theorem adds_record (hg : g.WellFormed) : Adds g (record s h g) (ofLinks h) := by
  have hproblems := Adds.foldl_graph (l := h.problems) s.malformed
    (fun g detail hg => s.adds_malformed hg detail) hg
  have hmarked := Adds.foldl_graph (l := h.virtuals.toList) markVirtual
    (fun g f hg => adds_markVirtual hg f) hproblems.wellFormed
  have hlinked := Adds.foldl_graph (l := h.overrides.toList)
    (fun g o => g.linkOverride o.overrider o.base)
    (fun g o hg => adds_linkOverride hg o.overrider o.base) hmarked.wellFormed
  have hall := (hproblems.trans hmarked).trans hlinked
  rwa [gather_empty, gather_empty, Set.empty_union, Set.empty_union] at hall

theorem adds_addSite {state : Graph × DispatchStats} (hg : state.1.WellFormed)
    (site : CallSite) : Adds state.1 (addSite s h state site).1 (ofSite h site) := by
  unfold addSite ofSite
  cases site.target with
  | virtual receiver method =>
      dsimp only
      cases h.dispatch receiver method with
      | ok d =>
          obtain ⟨targets, confidence⟩ := d
          have hcalls := s.adds_callAll hg site.caller targets.toList .virtual confidence
          cases confidence <;> exact hcalls
      | error failure =>
          have hreport := s.adds_malformed hg ("virtual call in " ++ site.caller ++ ": " ++
            failureText receiver method failure)
          have hcall := hreport.trans (s.adds_call hreport.wellFormed site.caller
            (standIn receiver method) .virtual .definite)
          rwa [Set.empty_union] at hcall
  | _ => exact .refl hg

theorem adds_run {u : TranslationUnit} {g' : Graph} {h : Hierarchy} {stats : DispatchStats}
    (hg : g.WellFormed) (hrun : run s u g = .ok (g', h, stats)) :
    Hierarchy.build u.classes u.functions = .ok h ∧ Adds g g' (added h u) := by
  rw [run] at hrun
  split at hrun
  · exact absurd hrun (by simp)
  · next h' hbuild =>
    have hrecord := adds_record s h' hg
    have hcalls := Adds.foldl_state (l := u.callSites) Prod.fst (addSite s h') (record s h' g, {})
      (fun st site hst => adds_addSite s h' hst site) hrecord.wellFormed
    obtain ⟨rfl, rfl, -⟩ := by simpa using hrun
    exact ⟨hbuild, hrecord.trans hcalls⟩

end VirtualCalls

/-! ## Lifetimes -/

namespace LifetimeCalls

variable (s : Scope) (h : Hierarchy) {g : Graph}

/-- What an event shows. -/
def ofEvent (h : Hierarchy) (e : LifetimeEvent) : Set Feature :=
  {x | h.contains e.className = true ∧
    x ∈ Scope.ofCalls e.caller (eventTargets h e).1 .implicit (eventTargets h e).2}

/-- What a body shows that does not spell out what it does. -/
def ofBody (shown : Set Feature) (explicit : List (FunctionKey × Phase)) (phase : Phase)
    (targets : List FunctionKey) (function : FunctionKey) : Set Feature :=
  {x | .body function ∈ shown ∧ (function, phase) ∉ explicit ∧
    x ∈ Scope.ofCalls function targets .implicit .definite}

/-- What the bodies of the destructor and the constructors of a class show. -/
def ofBodies (h : Hierarchy) (shown : Set Feature) (explicit : List (FunctionKey × Phase))
    (c : ClassRecord) : Set Feature :=
  gather (c.destructor.map (·.function)).toList
      (ofBody shown explicit .destroy (h.partDestroyTargets c.key)) ∪
    gather (c.constructors.map (·.function))
      (ofBody shown explicit .construct (h.partConstructTargets c.key))

/-- What the fourth pass adds to a graph that shows so much. -/
def added (options : Options) (h : Hierarchy) (u : TranslationUnit) (shown : Set Feature) :
    Set Feature :=
  {x | options.captureLifetimes = true ∧
    x ∈ gather u.allLifetimeEvents (ofEvent h) ∪
      gather h.records (ofBodies h shown (spelledOut u.allLifetimeEvents))}

/-- What the pass adds grows with what is shown. -/
theorem added_mono {options : Options} {u : TranslationUnit} {shown more : Set Feature}
    (hsub : shown ⊆ more) : added options h u shown ⊆ added options h u more := by
  rintro x ⟨hcapture, hx⟩
  refine ⟨hcapture, hx.imp_right ?_⟩
  rintro ⟨c, hc, hx⟩
  refine ⟨c, hc, hx.imp ?_ ?_⟩ <;>
  · rintro ⟨f, hf, hbody, hx⟩
    exact ⟨f, hf, hsub hbody, hx⟩

theorem adds_emit {state : State} (hg : state.1.WellFormed) (caller : FunctionKey)
    (targets : List FunctionKey) (confidence : Confidence) :
    Adds state.1 (emit s state caller targets confidence).1
      (Scope.ofCalls caller targets .implicit confidence) := by
  have hcalls := s.adds_callAll hg caller targets .implicit confidence
  cases confidence <;> exact hcalls

theorem adds_addEvent {state : State} (hg : state.1.WellFormed) (e : LifetimeEvent) :
    Adds state.1 (addEvent s h state e).1 (ofEvent h e) := by
  unfold addEvent ofEvent
  split
  · next hknown =>
    have hcalls := adds_emit s hg e.caller (eventTargets h e).1 (eventTargets h e).2
    simpa [hknown] using hcalls
  · next hknown =>
    have hreport := s.adds_malformed hg
      (e.phase.noun ++ " of unknown class " ++ e.className ++ " in " ++ e.caller)
    simpa [hknown] using hreport

theorem find?_any_hasBody_iff (hg : g.WellFormed) {function : FunctionKey} :
    (g.find? function).any (·.hasBody) = true ↔ .body function ∈ g.features := by
  rw [Option.any_eq_true]
  constructor
  · rintro ⟨f, hf, hbody⟩
    obtain ⟨hkey, -⟩ := List.find?_eq_some_iff_append.mp hf
    exact ⟨f, List.mem_of_find?_eq_some hf, eq_of_beq hkey, hbody⟩
  · rintro ⟨f, hf, rfl, hbody⟩
    obtain ⟨f', hf'⟩ : ∃ f', g.find? f.key = some f' :=
      Option.isSome_iff_exists.mp (List.find?_isSome.mpr ⟨f, hf, by simp⟩)
    -- two nodes with one key are one node
    have hsame : f' = f := by
      have hkey := (List.find?_eq_some_iff_append.mp hf').1
      exact List.inj_on_of_nodup_map hg.nodup (List.mem_of_find?_eq_some hf') hf (eq_of_beq hkey)
    exact ⟨f', hf', hsame ▸ hbody⟩

theorem body_notMem_ofCalls {caller key : FunctionKey} {targets : List FunctionKey}
    {kind : EdgeKind} {confidence : Confidence} :
    .body key ∉ Scope.ofCalls caller targets kind confidence := by
  rintro ⟨callee, -, hx | hx | hx⟩ <;> exact absurd hx (by simp)

section Bodies

variable {shown : Set Feature} {explicit : List (FunctionKey × Phase)} {phase : Phase}
  {targets : List FunctionKey}

/-- The bodies in the graph are those that are shown. -/
def SameBodies (shown : Set Feature) (g : Graph) : Prop :=
  ∀ key, .body key ∈ g.features ↔ .body key ∈ shown

theorem SameBodies.adds {g' : Graph} {S : Set Feature} (h : SameBodies shown g)
    (hadds : Adds g g' S) (hS : ∀ key, .body key ∉ S) : SameBodies shown g' :=
  fun key => (hadds.body_iff hS key).trans (h key)

theorem body_notMem_ofBody {key function : FunctionKey} :
    .body key ∉ ofBody shown explicit phase targets function :=
  fun hx => body_notMem_ofCalls hx.2.2

theorem adds_addBody {state : State} (hg : state.1.WellFormed) (hshown : SameBodies shown state.1)
    (function : FunctionKey) :
    Adds state.1 (addBody s explicit phase targets state function).1
      (ofBody shown explicit phase targets function) := by
  have hbody := (find?_any_hasBody_iff hg).trans (hshown function)
  unfold addBody
  split
  · next hcond =>
    rw [Bool.and_eq_true, hbody, decide_eq_true_eq] at hcond
    refine (adds_emit s hg function targets .definite).congr ?_
    ext x
    simp [ofBody, hcond.1, hcond.2]
  · next hcond =>
    rw [Bool.and_eq_true, hbody, decide_eq_true_eq] at hcond
    refine (Adds.refl hg).congr ?_
    ext x
    simp only [ofBody, Set.mem_union, Set.mem_ofPred_eq]
    tauto

variable (explicit phase targets) in
theorem adds_foldl_addBody {state : State} (hg : state.1.WellFormed)
    (hshown : SameBodies shown state.1) (functions : List FunctionKey) :
    Adds state.1 (functions.foldl (addBody s explicit phase targets) state).1
      (gather functions (ofBody shown explicit phase targets)) :=
  Adds.foldl Prod.fst (SameBodies shown) (addBody s explicit phase targets)
    (fun _ f _ hst hI =>
      have hadd := adds_addBody s hst hI f
      ⟨hadd, hI.adds hadd fun _ => body_notMem_ofBody⟩) hg hshown

theorem body_notMem_ofBodies {key : FunctionKey} {c : ClassRecord} :
    .body key ∉ ofBodies h shown explicit c := by
  rintro (⟨f, -, hx⟩ | ⟨f, -, hx⟩) <;> exact body_notMem_ofBody hx

theorem adds_addBodies {state : State} (hg : state.1.WellFormed)
    (hshown : SameBodies shown state.1) (c : ClassRecord) :
    Adds state.1 (addBodies s h explicit state c).1 (ofBodies h shown explicit c) := by
  have hdestroy := adds_foldl_addBody s explicit .destroy (h.partDestroyTargets c.key) hg hshown
    (c.destructor.map (·.function)).toList
  have hconstruct := adds_foldl_addBody s explicit .construct (h.partConstructTargets c.key)
    hdestroy.wellFormed (hshown.adds hdestroy ?_) (c.constructors.map (·.function))
  · exact hdestroy.trans hconstruct
  · rintro key ⟨f, -, hx⟩
    exact body_notMem_ofBody hx

end Bodies

theorem adds_run (options : Options) (hg : g.WellFormed) (u : TranslationUnit) :
    Adds g (run s options h u g).1 (added options h u g.features) := by
  rw [run]
  split
  · next hcapture =>
    have hevents := Adds.foldl_state (l := u.allLifetimeEvents) Prod.fst (addEvent s h)
      (g, { events := u.allLifetimeEvents.length }) (fun st e hst => adds_addEvent s h hst e) hg
    have hsame : SameBodies g.features (u.allLifetimeEvents.foldl (addEvent s h)
        (g, { events := u.allLifetimeEvents.length })).1 := by
      refine SameBodies.adds (fun _ => Iff.rfl) hevents ?_
      rintro key ⟨e, -, hx⟩
      exact body_notMem_ofCalls hx.2
    have hbodies := Adds.foldl (l := h.records) Prod.fst (SameBodies g.features)
      (addBodies s h (spelledOut u.allLifetimeEvents)) (fun _ c _ hst hI =>
        have hadd := adds_addBodies s h hst hI c
        ⟨hadd, hI.adds hadd fun _ => body_notMem_ofBodies h⟩) hevents.wellFormed hsame
    refine (hevents.trans hbodies).congr ?_
    ext x
    simp [added, hcapture]
  · next hcapture =>
    refine (Adds.refl hg).congr ?_
    simp [added, hcapture]

end LifetimeCalls

end CallGraphs
