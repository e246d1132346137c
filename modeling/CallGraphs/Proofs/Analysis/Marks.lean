import CallGraphs.Analysis.UnitGraph
import CallGraphs.Proofs.Analysis.Passes
import CallGraphs.Proofs.Analysis.Pointers
import CallGraphs.Proofs.Graph.Traits

/-!
# What the passes mark

The traits that each pass brings to the functions of a graph.

* The first pass brings what the records of the functions say, and the links
  that they declare.
* The second pass brings what the hierarchy knows, in this order: it marks the
  virtual functions that are in the graph, and then links overriders.  An end of
  a link that was not in the graph comes in with the link, after the marking.
* The third pass marks lambdas, and the fourth brings nothing.

None of the last three passes gives a function a body.
-/

namespace CallGraphs

open CallGraphs.Graph

/-! ## Direct calls -/

/-- What a record says of its function. -/
def FunctionRecord.Says (r : FunctionRecord) : Trait → Prop
  | .body => r.defined = true
  | .virtual => r.isVirtual = true
  | .lambda => r.isLambda = true
  | .declared => True
  | .overrides _ | .overriddenBy _ => False

namespace DirectCalls

variable (s : Scope) {g : Graph}

theorem has_functionOf (r : FunctionRecord) (t : Trait) :
    (functionOf s r).Has t ↔ r.Says t := by
  cases t with
  | overrides | overriddenBy => exact iff_of_false (SortedSet.not_mem_empty _) not_false
  | _ => simp [Function.Has, functionOf, FunctionRecord.Says]

theorem evolves_checkArity (g : Graph) (arities : Arities) (r : FunctionRecord) :
    Evolves g (checkArity s g arities r).1 ∅ := by
  rw [checkArity]
  split
  · exact .refl g
  · split
    · exact .refl g
    · split
      · exact .refl g
      · exact s.evolves_malformed g _

theorem traits_declare (state : Graph × Arities) (r : FunctionRecord) :
    (declare s state r).1.traits = state.1.traits ∪ {x | x.1 = r.key ∧ r.Says x.2} := by
  have hcheck := evolves_checkArity s state.1 state.2 r
  rw [declare, traits_addFunction, hcheck.traits, Set.union_empty]
  simp only [has_functionOf]
  rfl

theorem traits_foldl_declare (rs : List FunctionRecord) (state : Graph × Arities) :
    (rs.foldl (declare s) state).1.traits =
      state.1.traits ∪ {x | ∃ r ∈ rs, x.1 = r.key ∧ r.Says x.2} := by
  induction rs generalizing state with
  | nil => simp
  | cons r rs ih =>
      rw [List.foldl_cons, ih, traits_declare, Set.union_assoc]
      refine congrArg _ ?_
      ext x
      simp

theorem bodyFrom_foldl_declare (key : FunctionKey) (rs : List FunctionRecord)
    (state : Graph × Arities) (hstate : state.1.BodyFrom key (some s.unit)) :
    (rs.foldl (declare s) state).1.BodyFrom key (some s.unit) := by
  induction rs generalizing state with
  | nil => exact hstate
  | cons r rs ih =>
      refine ih _ (bodyFrom_addFunction ?_ fun _ _ => rfl)
      exact (evolves_checkArity s state.1 state.2 r).bodyFrom hstate

/-- The link that a record declares, at both ends. -/
def ofDeclaredLink (key base : FunctionKey) : Set (FunctionKey × Trait) :=
  {x | key ≠ base ∧ (x = (key, .overrides base) ∨ x = (base, .overriddenBy key))}

/-- A record has brought its function in, and the other end comes in as a stub. -/
theorem evolves_linkDeclared (hg : g.WellFormed) {key : FunctionKey}
    (hkey : .node key ∈ g.features) (base : FunctionKey) :
    Evolves g (linkDeclared s key g base) (ofDeclaredLink key base) := by
  have hadds := s.located_reference hg base ("override of " ++ key)
  have hfirst := s.evolves_reference g base ("override of " ++ key)
  refine (hfirst.trans (evolves_linkOverride hadds.wellFormed key base)).congr (congrArg _ ?_)
  rw [hadds.features, Set.empty_union]
  ext x
  refine or_iff_left ?_
  rintro ⟨-, hend, hnew⟩
  rcases hend with hend | hend
  · exact hnew (Or.inl (hend ▸ hkey))
  · exact hnew (Or.inr (hend ▸ rfl))

theorem evolves_addSite (state : Graph × Nat) (site : CallSite) :
    Evolves state.1 (addSite s state site).1 ∅ := by
  rw [addSite]
  split
  · exact s.evolves_callAll _ _ _ _ _
  · exact .refl _

/-- The traits that the first pass brings. -/
def marked (u : TranslationUnit) : Set (FunctionKey × Trait) :=
  {x | ∃ r ∈ u.functions, x.1 = r.key ∧ r.Says x.2} ∪
    {x | ∃ r ∈ u.functions, ∃ base ∈ r.overrides, x ∈ ofDeclaredLink r.key base}

theorem evolves_foldl_linkDeclared (rs : List FunctionRecord)
    (hg : Covers (rs.map (·.key)) g) :
    Evolves g (rs.foldl (fun g r => r.overrides.foldl (linkDeclared s r.key) g) g)
      {x | ∃ r ∈ rs, ∃ base ∈ r.overrides, x ∈ ofDeclaredLink r.key base} := by
  refine Evolves.foldl id (Covers (rs.map (·.key))) _ rs g (fun g r hr hg => ?_) hg
  have hkey : r.key ∈ rs.map (·.key) := List.mem_map_of_mem hr
  refine ⟨Evolves.foldl id (Covers (rs.map (·.key))) (linkDeclared s r.key) r.overrides g
    (fun g base _ hg => ⟨evolves_linkDeclared s hg.1 (hg.2 _ hkey) base,
      hg.adds (adds_linkDeclared s hg.1 r.key base)⟩) hg, ?_⟩
  exact hg.adds (Adds.foldl_graph (linkDeclared s r.key)
    (fun g base hg => adds_linkDeclared s hg r.key base) hg.1)

/-- The functions of the records. -/
theorem covers_declared (u : TranslationUnit) :
    Covers (u.functions.map (·.key)) (u.functions.foldl (declare s) (.empty, [])).1 := by
  have hadds := Adds.foldl_state (l := u.functions) Prod.fst (declare s) (.empty, [])
    (fun st r hst => adds_declare s hst r) wellFormed_empty
  refine ⟨hadds.wellFormed, fun key hkey => ?_⟩
  obtain ⟨r, hr, rfl⟩ := List.mem_map.mp hkey
  exact hadds.features ▸ Or.inr ⟨r, hr, Or.inl rfl⟩

/-- The rest of the first pass brings the links between them. -/
theorem evolves_declared (u : TranslationUnit) :
    Evolves (u.functions.foldl (declare s) (.empty, [])).1 (run s u .empty).1
      {x | ∃ r ∈ u.functions, ∃ base ∈ r.overrides, x ∈ ofDeclaredLink r.key base} :=
  (evolves_foldl_linkDeclared s u.functions (covers_declared s u)).trans_empty
    (Evolves.foldl_empty Prod.fst (evolves_addSite s) u.callSites (_, 0))

/-- What the first pass makes of an empty graph. -/
theorem traits_run (u : TranslationUnit) : (run s u .empty).1.traits = marked u ∧
    ∀ key, (run s u .empty).1.BodyFrom key (some s.unit) := by
  have hrest := evolves_declared s u
  refine ⟨hrest.traits.trans ?_, fun key => hrest.bodyFrom ?_⟩
  · rw [traits_foldl_declare, traits_empty, Set.empty_union]
    rfl
  · exact bodyFrom_foldl_declare s key u.functions (.empty, [])
      fun f hf => absurd hf List.not_mem_nil

end DirectCalls

/-! ## Virtual calls -/

namespace VirtualCalls

variable (s : Scope) (h : Hierarchy) {g : Graph}

theorem keys_markVirtual (g : Graph) (f : FunctionKey) : (markVirtual g f).keys = g.keys := by
  rw [markVirtual]
  split
  · exact keys_modifyNode fun _ => rfl
  · rfl

theorem evolves_markVirtual (f : FunctionKey) :
    Evolves g (markVirtual g f) {x | x = (f, .virtual) ∧ f ∈ g.keys} := by
  rw [markVirtual]
  split
  · next id hid =>
    have hmem : f ∈ g.keys := List.mem_of_getElem? (getElem?_of_nodeId? hid)
    obtain ⟨f', hf', rfl⟩ := exists_getElem?_of_nodeId? hid
    refine (evolves_modifyNode hf' (fun f => { f with isVirtual := true }) rfl rfl (fun _ => rfl)
      (S := {.virtual}) fun t => by cases t <;> simp [Function.Has]).congr (congrArg _ ?_)
    ext x
    simp [Prod.ext_iff, hmem]
  · next hnone => exact (Evolves.refl g).congr (by simp [nodeId?_eq_none_iff.mp hnone])

theorem evolves_foldl_markVirtual (fs : List FunctionKey) :
    Evolves g (fs.foldl markVirtual g) {x | x.2 = .virtual ∧ x.1 ∈ fs ∧ x.1 ∈ g.keys} := by
  have hall := Evolves.foldl id (fun g' => g'.keys = g.keys) markVirtual
    (T := fun f => {x | x = (f, .virtual) ∧ f ∈ g.keys}) fs g ?_ rfl
  · refine hall.congr (congrArg _ ?_)
    ext ⟨f, t⟩
    constructor
    · rintro ⟨f', hf', ⟨rfl, rfl⟩, hmem⟩
      exact ⟨rfl, hf', hmem⟩
    · rintro ⟨rfl, hf, hmem⟩
      exact ⟨f, hf, rfl, hmem⟩
  · intro g' f _ (hkeys : g'.keys = g.keys)
    refine ⟨?_, (keys_markVirtual g' f).trans hkeys⟩
    have hmark := evolves_markVirtual (g := g') f
    rwa [hkeys] at hmark

theorem ofLink_anti {shown more : Set Feature} (hsub : shown ⊆ more)
    (overrider base : FunctionKey) : ofLink more overrider base ⊆ ofLink shown overrider base :=
  fun _ hx => hx.imp_right fun ⟨hdeclared, hend, hnew⟩ =>
    ⟨hdeclared, hend, fun hmem => hnew (hsub hmem)⟩

/-- The traits that links bring to a graph that shows so much. -/
def ofOverrides (shown : Set Feature) (os : List Override) : Set (FunctionKey × Trait) :=
  {x | ∃ o ∈ os, x ∈ ofLink shown o.overrider o.base}

theorem evolves_foldl_linkOverride (hg : g.WellFormed) (os : List Override) :
    Evolves g (os.foldl (fun g o => g.linkOverride o.overrider o.base) g)
      (ofOverrides g.features os) := by
  induction os generalizing g with
  | nil => exact (Evolves.refl g).congr (by simp [ofOverrides])
  | cons o os ih =>
      have hadds := adds_linkOverride hg o.overrider o.base
      have hhead := evolves_linkOverride hg o.overrider o.base
      have hsub : g.features ⊆ (g.linkOverride o.overrider o.base).features :=
        fun _ hx => hadds.features ▸ Or.inl hx
      refine (hhead.trans (ih hadds.wellFormed)).congr (congrArg _ ?_)
      ext x
      constructor
      · rintro (hx | ⟨o', ho', hx⟩)
        · exact ⟨o, List.mem_cons_self, hx⟩
        · exact ⟨o', List.mem_cons_of_mem _ ho', ofLink_anti hsub _ _ hx⟩
      · rintro ⟨o', ho', hx⟩
        rcases List.mem_cons.mp ho' with rfl | ho'
        · exact Or.inl hx
        · rcases hx with hx | ⟨hdeclared, hend, hnew⟩
          · exact Or.inr ⟨o', ho', Or.inl hx⟩
          · -- an end that is new may have come in with the first link
            by_cases hmem : .node x.1 ∈ (g.linkOverride o.overrider o.base).features
            · have hnode := hmem
              rw [hadds.features] at hnode
              refine Or.inl (Or.inr ⟨hdeclared, ?_, hnew⟩)
              simpa using hnode.resolve_left hnew
            · exact Or.inr ⟨o', ho', Or.inr ⟨hdeclared, hend, hmem⟩⟩

/-- The traits that the second pass brings to a graph that shows so much. -/
def marked (shown : Set Feature) : Set (FunctionKey × Trait) :=
  {x | x.2 = .virtual ∧ x.1 ∈ h.virtuals ∧ .node x.1 ∈ shown} ∪
    ofOverrides shown h.overrides.toList

theorem evolves_record (hg : g.WellFormed) : Evolves g (record s h g) (marked h g.features) := by
  have hproblems := Evolves.foldl_empty id s.evolves_malformed h.problems g
  have hreported := Adds.foldl_graph (l := h.problems) s.malformed
    (fun g detail hg => s.adds_malformed hg detail) hg
  have hmarks := evolves_foldl_markVirtual (g := h.problems.foldl s.malformed g) h.virtuals.toList
  have hmarked := Adds.foldl_graph (l := h.virtuals.toList) markVirtual
    (fun g f hg => adds_markVirtual hg f) hreported.wellFormed
  have hlinks := evolves_foldl_linkOverride hmarked.wellFormed h.overrides.toList
  -- neither reports nor marks bring functions in
  have hsame : (h.problems.foldl s.malformed g).features = g.features := by
    rw [hreported.features, gather_empty, Set.union_empty]
  rw [hmarked.features, gather_empty, Set.union_empty, hsame] at hlinks
  refine ((hproblems.trans hmarks).trans hlinks).congr (congrArg _ ?_)
  rw [Set.empty_union, marked, ← hsame]
  rfl

theorem evolves_addSite (state : Graph × DispatchStats) (site : CallSite) :
    Evolves state.1 (addSite s h state site).1 ∅ := by
  unfold addSite
  cases site.target with
  | virtual receiver method =>
      dsimp only
      cases h.dispatch receiver method with
      | ok d =>
          obtain ⟨targets, confidence⟩ := d
          have hcalls := s.evolves_callAll state.1 site.caller targets.toList .virtual confidence
          cases confidence <;> exact hcalls
      | error failure =>
          exact (s.evolves_malformed _ _).trans_empty (s.evolves_call _ _ _ _ _)
  | _ => exact .refl _

theorem evolves_run {u : TranslationUnit} {g' : Graph} {h : Hierarchy} {stats : DispatchStats}
    (hg : g.WellFormed) (hrun : run s u g = .ok (g', h, stats)) :
    Evolves g g' (marked h g.features) := by
  rw [run] at hrun
  split at hrun
  · exact absurd hrun (by simp)
  · next h' hbuild =>
    obtain ⟨rfl, rfl, -⟩ := by simpa using hrun
    exact (evolves_record s h' hg).trans_empty
      (Evolves.foldl_empty Prod.fst (evolves_addSite s h') u.callSites (record s h' g, {}))

end VirtualCalls

/-! ## Lifetimes -/

namespace LifetimeCalls

variable (s : Scope) (h : Hierarchy)

theorem evolves_emit (state : State) (caller : FunctionKey) (targets : List FunctionKey)
    (confidence : Confidence) : Evolves state.1 (emit s state caller targets confidence).1 ∅ := by
  have hcalls := s.evolves_callAll state.1 caller targets .implicit confidence
  cases confidence <;> exact hcalls

theorem evolves_addEvent (state : State) (e : LifetimeEvent) :
    Evolves state.1 (addEvent s h state e).1 ∅ := by
  rw [addEvent]
  split
  · exact evolves_emit s state _ _ _
  · exact s.evolves_malformed _ _

theorem evolves_addBody (explicit : List (FunctionKey × Phase)) (phase : Phase)
    (targets : List FunctionKey) (state : State) (f : FunctionKey) :
    Evolves state.1 (addBody s explicit phase targets state f).1 ∅ := by
  rw [addBody]
  split
  · exact evolves_emit s state _ _ _
  · exact .refl _

theorem evolves_addBodies (explicit : List (FunctionKey × Phase)) (state : State)
    (c : ClassRecord) : Evolves state.1 (addBodies s h explicit state c).1 ∅ :=
  (Evolves.foldl_empty Prod.fst (evolves_addBody s explicit _ _) _ state).trans_empty
    (Evolves.foldl_empty Prod.fst (evolves_addBody s explicit _ _) _ _)

theorem evolves_run (options : Options) (u : TranslationUnit) (g : Graph) :
    Evolves g (run s options h u g).1 ∅ := by
  rw [run]
  split
  · exact (Evolves.foldl_empty Prod.fst (evolves_addEvent s h) _ (g, _)).trans_empty
      (Evolves.foldl_empty Prod.fst (evolves_addBodies s h _) _ _)
  · exact .refl g

end LifetimeCalls

/-! ## Pointers -/

namespace PointerCalls

section Lambdas

variable (h : Hierarchy)

/-- The lambdas among arguments. -/
def argLambdas (args : List (Option PointerSource)) : Set FunctionKey :=
  {f | some (.lambda f) ∈ args}

/-- The lambdas that are passed at a call site.  A call of a method that cannot be found, and the
life of an object, pass nothing on. -/
def siteLambdas (site : CallSite) : Set FunctionKey :=
  match site.target with
  | .direct _ | .pointer _ | .memberPointer .. => argLambdas site.args
  | .virtual receiver method =>
    match h.dispatch receiver method with
    | .ok _ => argLambdas site.args
    | .error _ => ∅
  | .implicit .. => ∅

/-- The lambdas that the facts of a unit mention as such. -/
def lambdas (u : TranslationUnit) : Set FunctionKey :=
  {f | (∃ r ∈ u.functions, ∃ d ∈ r.defaultArgs, d.value = .lambda f) ∨
    (∃ a ∈ u.assignments, a.source = .lambda f) ∨ ∃ site ∈ u.callSites, f ∈ siteLambdas h site}

end Lambdas

/-- The mark of lambdas. -/
def asLambdas (fs : Set FunctionKey) : Set (FunctionKey × Trait) :=
  {x | x.2 = .lambda ∧ x.1 ∈ fs}

/-- A pass over a list that marks lambdas. -/
theorem evolves_foldl_lambdas {σ α : Type} (graph : σ → Graph) (step : σ → α → σ)
    {L : α → Set FunctionKey}
    (hstep : ∀ st x, Evolves (graph st) (graph (step st x)) (asLambdas (L x))) (l : List α)
    (st : σ) : Evolves (graph st) (graph (l.foldl step st)) (asLambdas {f | ∃ x ∈ l, f ∈ L x}) := by
  refine (Evolves.foldl graph (fun _ => True) step l st (fun st x _ _ => ⟨hstep st x, trivial⟩)
    trivial).congr (congrArg _ ?_)
  ext x
  simp [asLambdas]
  tauto

variable (c : Setting) (st : State)

theorem evolves_reference (key : FunctionKey) (what : String) :
    Evolves st.graph (reference c st key what).1.graph ∅ :=
  c.scope.evolves_reference st.graph key what

theorem evolves_value (source : PointerSource) :
    Evolves st.graph (value c st source).1.graph (asLambdas {f | source = .lambda f}) := by
  cases source with
  | function key => exact (evolves_reference c st key _).congr (by simp [asLambdas])
  | lambda key =>
      have href := evolves_reference c st key "lambda conversion"
      have hid := c.scope.nodeId?_reference st.graph key "lambda conversion"
      refine (href.trans (evolves_markLambda hid)).congr (congrArg _ ?_)
      ext x
      simp [asLambdas, Prod.ext_iff, and_comm, eq_comm]
  | slot slot => exact (Evolves.refl _).congr (by simp [asLambdas])
  | callResult callee =>
      rw [value]
      cases c.returnFlow <;> exact (Evolves.refl _).congr (by simp [asLambdas])
  | null => exact (Evolves.refl _).congr (by simp [asLambdas])

theorem evolves_arguments (args : List (Option PointerSource)) :
    Evolves st.graph (arguments c st args).1.graph (asLambdas (argLambdas args)) := by
  rw [arguments]
  refine (evolves_foldl_lambdas (fun st : State × List (Option Flow.Value) => st.1.graph) _
    (L := fun arg => {f | arg = some (.lambda f)}) ?_ args (st, [])).congr ?_
  · intro st arg
    cases arg with
    | some source => exact (evolves_value c st.1 source).congr (by simp)
    | none => exact (Evolves.refl _).congr (by simp [asLambdas])
  · simp [argLambdas]

theorem evolves_addDefault (id : NodeId) (d : DefaultArg) :
    Evolves st.graph (addDefault c id st d).graph (asLambdas {f | d.value = .lambda f}) := by
  have hvalue := evolves_value c st d.value
  rw [addDefault]
  split <;> simpa [*] using hvalue

theorem evolves_addDefaults (r : FunctionRecord) : Evolves st.graph (addDefaults c st r).graph
    (asLambdas {f | ∃ d ∈ r.defaultArgs, d.value = .lambda f}) := by
  rw [addDefaults]
  split
  · next hnone => exact (Evolves.refl _).congr (by simp [asLambdas, List.isEmpty_iff.mp hnone])
  · have href := evolves_reference c st r.key "default argument owner"
    have hall := evolves_foldl_lambdas State.graph _
      (fun st' d => evolves_addDefault c st' (reference c st r.key "default argument owner").2 d)
      r.defaultArgs (reference c st r.key "default argument owner").1
    exact (href.trans hall).congr (by rw [Set.empty_union]; rfl)

theorem evolves_addAssignment (a : Assignment) :
    Evolves st.graph (addAssignment c st a).graph (asLambdas {f | a.source = .lambda f}) := by
  have hvalue : Evolves st.graph (value c (place c st a.destination).1 a.source).1.graph _ :=
    evolves_value c (place c st a.destination).1 a.source
  rw [addAssignment]
  dsimp only
  split <;> simpa [*] using hvalue

theorem evolves_addStaticCall (what : String) (args : List (Option Flow.Value)) (explicit : Nat)
    (callee : FunctionKey) :
    Evolves st.graph (addStaticCall c what args explicit st callee).graph ∅ :=
  evolves_reference c st callee what

theorem evolves_addIndirectCall (site : CallSite) (slot : Slot) (expand : Bool) :
    Evolves st.graph (addIndirectCall c st site slot expand).graph
      (asLambdas (argLambdas site.args)) :=
  evolves_arguments c (place c st slot).1 site.args

theorem evolves_addSite (site : CallSite) :
    Evolves st.graph (addSite c st site).graph (asLambdas (siteLambdas c.hierarchy site)) := by
  rw [addSite, siteLambdas]
  cases site.target with
  | direct callee =>
      have href := evolves_reference c st callee ("call from " ++ site.caller)
      exact (href.trans (evolves_arguments c _ site.args)).congr (by rw [Set.empty_union])
  | virtual receiver method =>
      dsimp only
      cases c.hierarchy.dispatch receiver method with
      | ok d =>
          exact (evolves_arguments c st site.args).trans_empty
            (Evolves.foldl_empty State.graph
              (fun st callee => evolves_addStaticCall c st _ _ _ callee) d.targets.toList
              (arguments c st site.args).1)
      | error failure => exact (Evolves.refl _).congr (by simp [asLambdas])
  | pointer slot => exact evolves_addIndirectCall c st site slot false
  | memberPointer slot receiver => exact evolves_addIndirectCall c st site slot true
  | implicit => exact (Evolves.refl _).congr (by simp [asLambdas])

theorem evolves_addExpansion (f : FunctionKey) :
    Evolves st.graph (addExpansion c st f).graph ∅ := by
  rw [addExpansion]
  split <;> exact .refl _

theorem evolves_constraints (u : TranslationUnit) (g : Graph) :
    Evolves g (constraints c u g).graph (asLambdas (lambdas c.hierarchy u)) := by
  have hdefaults := evolves_foldl_lambdas State.graph (addDefaults c) (evolves_addDefaults c)
    u.functions { graph := g }
  have hassigned := evolves_foldl_lambdas State.graph (addAssignment c) (evolves_addAssignment c)
    u.assignments (u.functions.foldl (addDefaults c) { graph := g })
  have hcalled := evolves_foldl_lambdas State.graph (addSite c) (evolves_addSite c)
    u.callSites
    (u.assignments.foldl (addAssignment c) (u.functions.foldl (addDefaults c) { graph := g }))
  have hexpanded := Evolves.foldl_empty State.graph (evolves_addExpansion c)
    c.hierarchy.virtuals.toList (u.callSites.foldl (addSite c)
      (u.assignments.foldl (addAssignment c) (u.functions.foldl (addDefaults c) { graph := g })))
  refine (((hdefaults.trans hassigned).trans hcalled).trans_empty hexpanded).congr (congrArg _ ?_)
  ext x
  simp only [asLambdas, lambdas, Set.mem_union, Set.mem_ofPred_eq, ← and_or_left, or_assoc]

theorem evolves_resolveSite (p : Flow.Program) (state : Graph × FlowReport) (site : CallSite) :
    Evolves state.1 (resolveSite c p state site).1 ∅ := by
  rw [resolveSite]
  split
  · exact .refl _
  · dsimp only
    split
    · exact .refl _
    · split
      · exact (c.scope.evolves_callAll _ _ _ _ _).trans_empty (evolves_addDiagnostic _)
      · exact c.scope.evolves_callAll _ _ _ _ _

theorem evolves_run {s : Scope} {options : Options} {cancelled : Bool} {h : Hierarchy}
    {u : TranslationUnit} {g g' : Graph} {report : FlowReport}
    (hrun : run s options cancelled h u g = (g', .ok report)) :
    Evolves g g' (asLambdas (lambdas h u)) := by
  simp only [run] at hrun
  split at hrun
  · exact absurd hrun (by simp)
  · next p fixpoint hok =>
    obtain ⟨rfl, -⟩ := Prod.mk.inj hrun
    exact (evolves_constraints ⟨s, h, options.returnFlow⟩ u g).trans_empty
      (Evolves.foldl_empty Prod.fst (evolves_resolveSite _ p) u.callSites (_, { fixpoint }))

end PointerCalls

/-! ## Units -/

/-- The passes over facts that a graph has been made from. -/
theorem evolves_passes {s : Scope} {options : Options} {cancelled : Bool} {u : TranslationUnit}
    {g g₁ g₂ : Graph} {h : Hierarchy} {dispatch : DispatchStats} {flow : FlowReport}
    (hg : g.WellFormed) (hvirtual : VirtualCalls.run s u g = .ok (g₁, h, dispatch))
    (hpointers : PointerCalls.run s options cancelled h u g₁ = (g₂, .ok flow)) :
    Evolves g (LifetimeCalls.run s options h u g₂).1
      (VirtualCalls.marked h g.features ∪
        PointerCalls.asLambdas (PointerCalls.lambdas h u)) :=
  ((VirtualCalls.evolves_run s hg hvirtual).trans (PointerCalls.evolves_run hpointers)).trans_empty
    (LifetimeCalls.evolves_run s h options u g₂)

namespace UnitGraph

/-- What is known of the functions of a unit, and where their bodies come from. -/
structure Marked (u : TranslationUnit) (h : Hierarchy) (g : Graph) : Prop where
  traits : g.traits = DirectCalls.marked u ∪ (VirtualCalls.marked h (DirectCalls.added u) ∪
    PointerCalls.asLambdas (PointerCalls.lambdas h u))
  bodies : ∀ key, g.BodyFrom key (some u.name)

/-- What the passes after the first one bring to the graph of a unit. -/
theorem evolves_of_analyse {options : Options} {cancelled : Bool} {index : Nat}
    {u : TranslationUnit} {p : UnitGraph} (hok : analyse options cancelled index u = .ok p) :
    ∃ h, Hierarchy.build u.classes u.functions = .ok h ∧
      Evolves (DirectCalls.run { unit := u.name } u .empty).1 p.graph
        (VirtualCalls.marked h (DirectCalls.added u) ∪
          PointerCalls.asLambdas (PointerCalls.lambdas h u)) := by
  have hdirect := DirectCalls.adds_run { unit := u.name } Graph.wellFormed_empty u
  have hshown := hdirect.features
  rw [Graph.features_empty, Set.empty_union] at hshown
  simp only [analyse] at hok
  split at hok
  · exact absurd hok (by simp)
  split at hok
  · exact absurd hok (by simp)
  · next g₁ h dispatch hvirtual =>
    split at hok
    · exact absurd hok (by simp)
    · next g₂ flow hpointers =>
      obtain rfl := Except.ok.inj hok
      have hall := evolves_passes hdirect.wellFormed hvirtual hpointers
      rw [hshown] at hall
      exact ⟨h, (VirtualCalls.adds_run _ hdirect.wellFormed hvirtual).1, hall⟩

theorem marked_of_analyse {options : Options} {cancelled : Bool} {index : Nat}
    {u : TranslationUnit} {p : UnitGraph} (hok : analyse options cancelled index u = .ok p) :
    ∃ h, Hierarchy.build u.classes u.functions = .ok h ∧ Marked u h p.graph := by
  obtain ⟨h, hbuild, hall⟩ := evolves_of_analyse hok
  obtain ⟨htraits, hbodies⟩ := DirectCalls.traits_run { unit := u.name } u
  exact ⟨h, hbuild, hall.traits.trans (by rw [htraits]), fun key => hall.bodyFrom (hbodies key)⟩

end UnitGraph

end CallGraphs
