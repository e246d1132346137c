import CallGraphs.Proofs.Analysis.Growth
import CallGraphs.Proofs.Analysis.Unresolved
import Mathlib

/-!
# What slots hold, read off the facts

The pass for pointers turns facts into constraints, in which every slot is
replaced by the one it stands for, then into a program, and reads the edges off
the solution.  Here the meaning is given without any of these.  A family of what
the slots hold is `Closed` under the facts of a unit if it takes in what is
assigned, what is passed as an argument and what is left to a default argument,
and if slots that share their storage hold the same.

Two things carry the argument.

* A family solves the constraints if and only if it is closed once it is read
  through the slots that stand for others (`PointerCalls.solves_asked_iff`).  A
  closed family is its own reading, so least means the same on both sides.
* The calls in the graph and the reports on it are those of the least solution
  (`Resolution.call_mem_features_of_added`, `Resolution.unresolved_iff`).
-/

namespace CallGraphs

open CallGraphs.Flow

/-! ## The meaning of the facts -/

/-- What a source supplies if the slots hold so much. -/
def PointerSource.supply (returnFlow : ReturnFlow) (H : Family FunctionKey) :
    PointerSource → Set (Item FunctionKey)
  | .function f | .lambda f => {.function f}
  | .slot place => H place
  | .callResult callee =>
    match returnFlow with
    | .track => H (.result callee)
    | .unresolved => {.blocked}
  | .null => ∅

/-- The functions that a site passes its arguments to if the slots hold so much. -/
inductive PassesTo (h : Hierarchy) (H : Family FunctionKey) (site : CallSite) : FunctionKey → Prop
  | direct {f : FunctionKey} : site.target = .direct f → PassesTo h H site f
  | dispatched {receiver method : String} {d : Dispatch} {f : FunctionKey} :
      site.target = .virtual receiver method → h.dispatch receiver method = .ok d →
      f ∈ d.targets → PassesTo h H site f
  | pointer {slot : Slot} {f : FunctionKey} : site.target = .pointer slot →
      .function f ∈ H slot → PassesTo h H site f
  | memberPointer {slot : Slot} {receiver : Option String} {f : FunctionKey} :
      site.target = .memberPointer slot receiver → .function f ∈ H slot → PassesTo h H site f
  /-- The static class of the object does not matter: all overriders count. -/
  | overrider {slot : Slot} {receiver : Option String} {f other : FunctionKey} :
      site.target = .memberPointer slot receiver → .function f ∈ H slot → f ∈ h.virtuals →
      other ∈ h.overriders f → PassesTo h H site other

/-- A family takes in all that the facts of a unit bring to the slots. -/
structure Closed (h : Hierarchy) (returnFlow : ReturnFlow) (u : TranslationUnit)
    (H : Family FunctionKey) : Prop where
  aliased : ∀ s t, h.canonical s = h.canonical t → H s ⊆ H t
  assigned : ∀ a ∈ u.assignments, a.source.supply returnFlow H ⊆ H a.destination
  passed : ∀ site ∈ u.callSites, ∀ f, PassesTo h H site f → ∀ i source,
    site.args[i]? = some (some source) → source.supply returnFlow H ⊆ H (.param f i)
  defaulted : ∀ site ∈ u.callSites, ∀ f, PassesTo h H site f → ∀ r ∈ u.functions, r.key = f →
    ∀ d ∈ r.defaultArgs, site.explicitArgs ≤ d.index →
      d.value.supply returnFlow H ⊆ H (.param f d.index)

/-- A site calls whatever a slot holds. -/
def CallSite.CallsThrough (site : CallSite) (slot : Slot) : Prop :=
  site.target = .pointer slot ∨ ∃ receiver, site.target = .memberPointer slot receiver

/-! ## Constraints and facts -/

namespace PointerCalls

variable {h : Hierarchy} {returnFlow : ReturnFlow} {u : TranslationUnit} {F : Family FunctionKey}
  {site : CallSite}

theorem call_mem_ofSite {f : FunctionKey} {args : List (Option (Origin FunctionKey))}
    {explicit : Nat} : .call f args explicit ∈ ofSite h returnFlow site ↔
      args = originsOf h returnFlow site.args ∧ explicit = site.explicitArgs ∧
        (site.target = .direct f ∨ ∃ receiver method d, site.target = .virtual receiver method ∧
          h.dispatch receiver method = .ok d ∧ f ∈ d.targets) := by
  rw [ofSite]
  cases htarget : site.target with
  | direct callee =>
      simp only [List.mem_singleton, Constraint.call.injEq, CallTarget.direct.injEq]
      constructor
      · rintro ⟨rfl, rfl, rfl⟩
        exact ⟨rfl, rfl, Or.inl rfl⟩
      · rintro ⟨rfl, rfl, rfl | ⟨_, _, _, heq, -⟩⟩
        · exact ⟨rfl, rfl, rfl⟩
        · exact absurd heq (by simp)
  | virtual receiver method =>
      cases hd : h.dispatch receiver method with
      | error _ => simp [hd]
      | ok d =>
          simp only [hd, List.mem_map, Constraint.call.injEq]
          constructor
          · rintro ⟨f', hf, rfl, rfl, rfl⟩
            exact ⟨rfl, rfl, Or.inr ⟨receiver, method, d, rfl, hd, hf⟩⟩
          · rintro ⟨rfl, rfl, heq | ⟨_, _, d', heq, hd', hf⟩⟩
            · exact absurd heq (by simp)
            · obtain ⟨rfl, rfl⟩ := CallTarget.virtual.inj heq
              obtain rfl := Except.ok.inj (hd.symm.trans hd')
              exact ⟨f, hf, rfl, rfl, rfl⟩
  | _ => simp

theorem callThrough_mem_ofSite {through : Slot} {args : List (Option (Origin FunctionKey))}
    {explicit : Nat} {expand : Bool} :
    .callThrough through args explicit expand ∈ ofSite h returnFlow site ↔
      args = originsOf h returnFlow site.args ∧ explicit = site.explicitArgs ∧
        ∃ slot, through = h.canonical slot ∧
          (expand = false ∧ site.target = .pointer slot ∨
            expand = true ∧ ∃ receiver, site.target = .memberPointer slot receiver) := by
  rw [ofSite]
  cases htarget : site.target with
  | virtual receiver method => cases hd : h.dispatch receiver method <;> simp [hd]
  | direct | implicit => simp
  | pointer slot => aesop
  | memberPointer slot receiver => aesop

/-- A site asks for calls and for nothing else. -/
theorem exists_call_of_mem_ofSite {c : Constraint FunctionKey} (hc : c ∈ ofSite h returnFlow site) :
    (∃ f args explicit, c = .call f args explicit) ∨
      ∃ through args explicit expand, c = .callThrough through args explicit expand := by
  rw [ofSite] at hc
  split at hc
  · exact Or.inl ⟨_, _, _, List.mem_singleton.mp hc⟩
  · split at hc
    · obtain ⟨f, -, rfl⟩ := List.mem_map.mp hc
      exact Or.inl ⟨_, _, _, rfl⟩
    · exact absurd hc List.not_mem_nil
  · exact Or.inr ⟨_, _, _, _, List.mem_singleton.mp hc⟩
  · exact Or.inr ⟨_, _, _, _, List.mem_singleton.mp hc⟩
  · exact absurd hc List.not_mem_nil

/-- What the facts ask for, by the kind of fact. -/
theorem mem_asked_iff {c : Constraint FunctionKey} : c ∈ asked h returnFlow u Set.univ ↔
    (∃ r ∈ u.functions, ∃ d ∈ r.defaultArgs, ∃ o, originOf h returnFlow d.value = some o ∧
      c = .default r.key d.index o) ∨
    (∃ a ∈ u.assignments, ∃ o, originOf h returnFlow a.source = some o ∧
      c = .flow o (h.canonical a.destination)) ∨
    (∃ site ∈ u.callSites, c ∈ ofSite h returnFlow site) ∨
    ∃ f ∈ h.virtuals, ∃ other ∈ h.overriders f, c = .overrider f other := by
  simp [asked, ofRecord, ofDefault, ofAssignment, eq_comm]

theorem call_mem_asked {f : FunctionKey} {args : List (Option (Origin FunctionKey))}
    {explicit : Nat} : .call f args explicit ∈ asked h returnFlow u Set.univ ↔
      ∃ site ∈ u.callSites, .call f args explicit ∈ ofSite h returnFlow site := by
  simp [mem_asked_iff]

theorem callThrough_mem_asked_iff {through : Slot} {args : List (Option (Origin FunctionKey))}
    {explicit : Nat} {expand : Bool} :
    .callThrough through args explicit expand ∈ asked h returnFlow u Set.univ ↔
      ∃ site ∈ u.callSites, .callThrough through args explicit expand ∈
        ofSite h returnFlow site := by
  simp [mem_asked_iff]

theorem overrider_mem_asked_iff {f other : FunctionKey} :
    .overrider f other ∈ asked h returnFlow u Set.univ ↔
      f ∈ h.virtuals ∧ other ∈ h.overriders f := by
  have hsite : ∀ site, .overrider f other ∉ ofSite h returnFlow site := fun site hc => by
    simpa using exists_call_of_mem_ofSite hc
  simp [mem_asked_iff, hsite]

theorem flow_mem_asked {o : Origin FunctionKey} {key : Slot} :
    .flow o key ∈ asked h returnFlow u Set.univ ↔ ∃ a ∈ u.assignments,
      originOf h returnFlow a.source = some o ∧ key = h.canonical a.destination := by
  have hsite : ∀ site, .flow o key ∉ ofSite h returnFlow site := fun site hc => by
    simpa using exists_call_of_mem_ofSite hc
  simp [mem_asked_iff, hsite]

theorem default_mem_asked {f : FunctionKey} {i : Nat} {o : Origin FunctionKey} :
    .default f i o ∈ asked h returnFlow u Set.univ ↔ ∃ r ∈ u.functions, r.key = f ∧
      ∃ d ∈ r.defaultArgs, d.index = i ∧ originOf h returnFlow d.value = some o := by
  have hsite : ∀ site, .default f i o ∉ ofSite h returnFlow site := fun site hc => by
    simpa using exists_call_of_mem_ofSite hc
  constructor
  · intro hc
    obtain ⟨r, hr, d, hd, o', ho, heq⟩ := (mem_asked_iff.mp hc).resolve_right (by simp [hsite])
    obtain ⟨rfl, rfl, rfl⟩ := Constraint.default.inj heq
    exact ⟨r, hr, rfl, d, hd, rfl, ho⟩
  · rintro ⟨r, hr, rfl, d, hd, rfl, ho⟩
    exact mem_asked_iff.mpr (Or.inl ⟨r, hr, d, hd, o, ho, rfl⟩)

/-- Every call that the facts ask for is one that a site passes its arguments to. -/
theorem exists_passesTo_of_called {f : FunctionKey} {args : List (Option (Origin FunctionKey))}
    {explicit : Nat} (hcalled : Called (asked h returnFlow u Set.univ) F f args explicit) :
    ∃ site ∈ u.callSites, PassesTo h (F ∘ h.canonical) site f ∧
      args = originsOf h returnFlow site.args ∧ explicit = site.explicitArgs := by
  cases hcalled with
  | known hc =>
      obtain ⟨site, hsite, hc⟩ := call_mem_asked.mp hc
      obtain ⟨hargs, hexplicit, htarget | ⟨_, _, d, htarget, hd, hf⟩⟩ := call_mem_ofSite.mp hc
      · exact ⟨site, hsite, .direct htarget, hargs, hexplicit⟩
      · exact ⟨site, hsite, .dispatched htarget hd hf, hargs, hexplicit⟩
  | held hc hf =>
      obtain ⟨site, hsite, hc⟩ := callThrough_mem_asked_iff.mp hc
      obtain ⟨hargs, hexplicit, slot, rfl, ⟨-, htarget⟩ | ⟨-, receiver, htarget⟩⟩ :=
        callThrough_mem_ofSite.mp hc
      · exact ⟨site, hsite, .pointer htarget hf, hargs, hexplicit⟩
      · exact ⟨site, hsite, .memberPointer htarget hf, hargs, hexplicit⟩
  | overrider hc hg hover =>
      obtain ⟨hv, hover⟩ := overrider_mem_asked_iff.mp hover
      obtain ⟨site, hsite, hc⟩ := callThrough_mem_asked_iff.mp hc
      obtain ⟨hargs, hexplicit, slot, rfl, ⟨hfalse, -⟩ | ⟨-, receiver, htarget⟩⟩ :=
        callThrough_mem_ofSite.mp hc
      · exact absurd hfalse (by simp)
      · exact ⟨site, hsite, .overrider htarget hg hv hover, hargs, hexplicit⟩

variable (returnFlow) in
/-- Whatever a site passes its arguments to is called, as far as the facts ask. -/
theorem called_of_passesTo (hsite : site ∈ u.callSites) {f : FunctionKey}
    (hpasses : PassesTo h (F ∘ h.canonical) site f) :
    Called (asked h returnFlow u Set.univ) F f (originsOf h returnFlow site.args)
      site.explicitArgs := by
  have hcall : ∀ {f}, (site.target = .direct f ∨ ∃ receiver method d,
      site.target = .virtual receiver method ∧ h.dispatch receiver method = .ok d ∧
        f ∈ d.targets) → Called (asked h returnFlow u Set.univ) F f
          (originsOf h returnFlow site.args) site.explicitArgs := fun htarget =>
    .known (call_mem_asked.mpr ⟨site, hsite, call_mem_ofSite.mpr ⟨rfl, rfl, htarget⟩⟩)
  have hthrough : ∀ slot receiver, site.target = .memberPointer slot receiver →
      .callThrough (h.canonical slot) (originsOf h returnFlow site.args) site.explicitArgs true ∈
        asked h returnFlow u Set.univ := fun slot receiver htarget =>
    callThrough_mem_asked_iff.mpr ⟨site, hsite, callThrough_mem_ofSite.mpr
      ⟨rfl, rfl, slot, rfl, Or.inr ⟨rfl, receiver, htarget⟩⟩⟩
  cases hpasses with
  | direct htarget => exact hcall (Or.inl htarget)
  | dispatched htarget hd hf => exact hcall (Or.inr ⟨_, _, _, htarget, hd, hf⟩)
  | @pointer slot _ htarget hf =>
      exact .held (callThrough_mem_asked_iff.mpr ⟨site, hsite, callThrough_mem_ofSite.mpr
        ⟨rfl, rfl, slot, rfl, Or.inl ⟨rfl, htarget⟩⟩⟩) hf
  | memberPointer htarget hf => exact .held (hthrough _ _ htarget) hf
  | overrider htarget hf hv hover =>
      exact .overrider (hthrough _ _ htarget) hf (overrider_mem_asked hv hover)

/-! ## Solutions and closed families -/

/-- What a source supplies under the slots that stand for others is the content of its origin. -/
theorem mem_supply_iff {source : PointerSource} {x : Item FunctionKey} :
    x ∈ source.supply returnFlow (F ∘ h.canonical) ↔
      ∃ o, originOf h returnFlow source = some o ∧ x ∈ o.content F := by
  cases source with
  | callResult callee =>
      cases returnFlow <;>
        simp [PointerSource.supply, originOf, Origin.content, ClassTable.canonical]
  | _ => simp [PointerSource.supply, originOf, Origin.content]

theorem getElem?_originsOf_eq_some {args : List (Option PointerSource)} {i : Nat}
    {o : Origin FunctionKey} : (originsOf h returnFlow args)[i]? = some (some o) ↔
      ∃ source, args[i]? = some (some source) ∧ originOf h returnFlow source = some o := by
  simp [originsOf, Option.bind_eq_some_iff]

/-- A family solves the constraints of the facts if and only if, read through the slots that stand
for others, it is closed under the facts. -/
theorem solves_asked_iff : Solves (asked h returnFlow u Set.univ) id F ↔
    Closed h returnFlow u (F ∘ h.canonical) := by
  constructor
  · intro hF
    have hsub : ∀ {source : PointerSource} {key : Slot},
        (∀ o, originOf h returnFlow source = some o →
          Flows (asked h returnFlow u Set.univ) id F o key) →
        source.supply returnFlow (F ∘ h.canonical) ⊆ F key := fun hflows x hx => by
      obtain ⟨o, ho, hx⟩ := mem_supply_iff.mp hx
      exact hF o _ (hflows o ho) hx
    refine ⟨fun s t heq => ?_, fun a ha => ?_, fun site hsite f hpasses i source hi => ?_,
      fun site hsite f hpasses r hr hkey d hd hle => ?_⟩
    · exact (congrArg F heq).subset
    · exact hsub fun o ho => .given (flow_mem_asked.mpr ⟨a, ha, ho, rfl⟩)
    · have hcalled := called_of_passesTo returnFlow hsite hpasses
      exact hsub fun o ho =>
        .argument hcalled (getElem?_originsOf_eq_some.mpr ⟨source, hi, ho⟩)
    · have hcalled := called_of_passesTo returnFlow hsite hpasses
      exact hsub fun o ho =>
        .default hcalled (default_mem_asked.mpr ⟨r, hr, hkey, d, hd, rfl, ho⟩) hle
  · intro hclosed o key hflows x hx
    cases hflows with
    | given hc =>
        obtain ⟨a, ha, ho, rfl⟩ := flow_mem_asked.mp hc
        exact hclosed.assigned a ha (mem_supply_iff.mpr ⟨o, ho, hx⟩)
    | argument hcalled hi =>
        obtain ⟨site, hsite, hpasses, rfl, -⟩ := exists_passesTo_of_called hcalled
        obtain ⟨source, hi, ho⟩ := getElem?_originsOf_eq_some.mp hi
        exact hclosed.passed site hsite _ hpasses _ source hi (mem_supply_iff.mpr ⟨o, ho, hx⟩)
    | default hcalled hc hle =>
        obtain ⟨site, hsite, hpasses, -, rfl⟩ := exists_passesTo_of_called hcalled
        obtain ⟨r, hr, hkey, d, hd, rfl, ho⟩ := default_mem_asked.mp hc
        exact hclosed.defaulted site hsite _ hpasses r hr hkey d hd hle
          (mem_supply_iff.mpr ⟨o, ho, hx⟩)

end PointerCalls

/-- A closed family is its own reading through the slots that stand for others. -/
theorem Closed.comp_canonical {h : Hierarchy} {returnFlow : ReturnFlow} {u : TranslationUnit}
    {H : Family FunctionKey} (hclosed : Closed h returnFlow u H) : H ∘ h.canonical = H := by
  have hstands : ∀ slot, h.canonical (h.canonical slot) = h.canonical slot :=
    ClassTable.Within.canonical_canonical fun _ _ hc => hc
  funext slot
  exact Set.Subset.antisymm (hclosed.aliased _ _ (hstands slot))
    (hclosed.aliased _ _ (hstands slot).symm)

/-- What the slots hold in a resolution is, slot by slot, the least that is closed under the
facts. -/
theorem Resolution.isLeast_closed {options : Options} {u : TranslationUnit} {shown : Set Feature}
    (r : Resolution options u shown) :
    IsLeast {H | Closed r.hierarchy options.returnFlow u H} (r.held ∘ r.hierarchy.canonical) := by
  refine ⟨PointerCalls.solves_asked_iff.mp r.isLeast_univ.1, fun H hclosed => ?_⟩
  have hown : H ∘ r.hierarchy.canonical = H := Closed.comp_canonical hclosed
  have hsolves : Solves (PointerCalls.asked r.hierarchy options.returnFlow u Set.univ) id H :=
    PointerCalls.solves_asked_iff.mpr (hown.symm ▸ hclosed)
  rw [← hown]
  exact fun slot => r.isLeast_univ.2 hsolves (r.hierarchy.canonical slot)

/-! ## Calls and reports -/

section Indirect

variable {h : Hierarchy} {held : Family FunctionKey} {options : Options} {u : TranslationUnit}
  {caller target : FunctionKey} {confidence : Confidence}

theorem derived_pointer_iff : Derived options u h held caller target .pointer confidence ↔
    confidence = .may ∧ ∃ site ∈ u.callSites, ∃ slot, site.caller = caller ∧
      site.target = .pointer slot ∧ .function target ∈ held (h.canonical slot) := by
  constructor
  · intro hderived
    cases hderived with
    | site hsite hcalls =>
        cases hcalls with
        | pointer htarget hheld => exact ⟨rfl, _, hsite, _, rfl, htarget, hheld⟩
  · rintro ⟨rfl, site, hsite, slot, rfl, htarget, hheld⟩
    exact .site hsite (.pointer htarget hheld)

theorem derived_memberPointer_iff :
    Derived options u h held caller target .memberPointer confidence ↔
      confidence = .may ∧ ∃ site ∈ u.callSites, ∃ slot receiver f, site.caller = caller ∧
        site.target = .memberPointer slot receiver ∧ .function f ∈ held (h.canonical slot) ∧
          target ∈ h.memberPointerTargets f receiver := by
  constructor
  · intro hderived
    cases hderived with
    | site hsite hcalls =>
        cases hcalls with
        | memberPointer htarget hheld hmem =>
            exact ⟨rfl, _, hsite, _, _, _, rfl, htarget, hheld, hmem⟩
  · rintro ⟨rfl, site, hsite, slot, receiver, f, rfl, htarget, hheld, hmem⟩
    exact .site hsite (.memberPointer htarget hheld hmem)

theorem exists_indirect?_iff {site : CallSite} {slot : Slot} :
    (∃ kind receiver, PointerCalls.indirect? site = some (slot, kind, receiver)) ↔
      site.CallsThrough slot := by
  rw [CallSite.CallsThrough, PointerCalls.indirect?]
  cases site.target <;> simp

theorem unsettled_iff {site : CallSite} {text : String} {reason : UnresolvedReason} :
    Unsettled h held site text reason ↔ ∃ slot, site.CallsThrough slot ∧
      text = site.label.getD slot.text ∧
      (reason = .returnValue ∧ .blocked ∈ held (h.canonical slot) ∨
        reason = .emptyAliasSet ∧ held (h.canonical slot) = ∅) := by
  constructor
  · intro hunsettled
    cases hunsettled with
    | returnValue hsite hblocked =>
        exact ⟨_, exists_indirect?_iff.mp ⟨_, _, hsite⟩, rfl, Or.inl ⟨rfl, hblocked⟩⟩
    | emptyAliasSet hsite hempty =>
        exact ⟨_, exists_indirect?_iff.mp ⟨_, _, hsite⟩, rfl, Or.inr ⟨rfl, hempty⟩⟩
  · rintro ⟨slot, hthrough, rfl, ⟨rfl, hblocked⟩ | ⟨rfl, hempty⟩⟩
    · obtain ⟨kind, receiver, hsite⟩ := exists_indirect?_iff.mpr hthrough
      exact .returnValue hsite hblocked
    · obtain ⟨kind, receiver, hsite⟩ := exists_indirect?_iff.mpr hthrough
      exact .emptyAliasSet hsite hempty

end Indirect

/-! ## The first pass reports no call -/

namespace DirectCalls

variable (s : Scope)

theorem unresolvedCalls_declare (state : Graph × Arities) (r : FunctionRecord) :
    (declare s state r).1.unresolvedCalls = state.1.unresolvedCalls := by
  rw [declare, Graph.unresolvedCalls_addFunction, checkArity]
  split
  · rfl
  · split
    · rfl
    · split <;> simp

theorem unresolvedCalls_linkDeclared (key : FunctionKey) (g : Graph) (base : FunctionKey) :
    (linkDeclared s key g base).unresolvedCalls = g.unresolvedCalls := by
  simp [linkDeclared]

theorem unresolvedCalls_addSite (state : Graph × Nat) (site : CallSite) :
    (addSite s state site).1.unresolvedCalls = state.1.unresolvedCalls := by
  rw [addSite]
  split
  · exact s.unresolvedCalls_callAll _ _ _ _ _
  · rfl

theorem unresolvedCalls_run (u : TranslationUnit) (g : Graph) :
    (run s u g).1.unresolvedCalls = g.unresolvedCalls := by
  have hdeclared := Graph.unresolvedCalls_foldl Prod.fst (unresolvedCalls_declare s) u.functions
    (g, [])
  have hlinked := Graph.unresolvedCalls_foldl id (fun g (r : FunctionRecord) =>
    Graph.unresolvedCalls_foldl id (unresolvedCalls_linkDeclared s r.key) r.overrides g) u.functions
    (u.functions.foldl (declare s) (g, [])).1
  have hcalled := Graph.unresolvedCalls_foldl Prod.fst (unresolvedCalls_addSite s) u.callSites
  rw [run]
  exact (hcalled _).trans (hlinked.trans hdeclared)

end DirectCalls

namespace UnitGraph

/-- A unit that is analysed has a resolution that its calls and its reports come from. -/
theorem exists_resolution_of_analyse {options : Options} {cancelled : Bool} {index : Nat}
    {u : TranslationUnit} {p : UnitGraph} (hok : analyse options cancelled index u = .ok p) :
    ∃ r : Resolution options u (DirectCalls.added u), p.graph.features = r.features ∧
      ∀ caller text reason, p.graph.Unresolved caller text reason ↔
        ∃ site ∈ u.callSites, site.caller = caller ∧
          Unsettled r.hierarchy r.held site text reason := by
  obtain ⟨r, hr⟩ := (analysed_of_analyse hok).features
  refine ⟨r, hr, fun caller text reason => ?_⟩
  have hdirect := DirectCalls.adds_run { unit := u.name } Graph.wellFormed_empty u
  have hshown := hdirect.features
  rw [Graph.features_empty, Set.empty_union] at hshown
  have hnone : ¬ (DirectCalls.run { unit := u.name } u .empty).1.Unresolved caller text reason := by
    rw [Graph.unresolved_congr (DirectCalls.unresolvedCalls_run _ u .empty)]
    rintro ⟨d, hd, -⟩
    exact absurd hd List.not_mem_nil
  simp only [analyse] at hok
  split at hok
  · exact absurd hok (by simp)
  split at hok
  · exact absurd hok (by simp)
  · next g₁ h dispatch hvirtual =>
    split at hok
    · exact absurd hok (by simp)
    · next g₂ flow hpointers =>
      obtain rfl := Except.ok.inj hok
      rw [r.unresolved_iff hdirect.wellFormed hshown hvirtual hpointers, or_iff_right hnone]

end UnitGraph

/-! ## Main statement -/

/-- In the graph of a unit, the calls through slots and the reports on them are those that the least
family closed under the facts gives. -/
theorem indirectCalls_exact {options : Options} {cancelled : Bool} {index : Nat}
    {u : TranslationUnit} {p : UnitGraph}
    (hok : UnitGraph.analyse options cancelled index u = .ok p) :
    ∃ h H, Hierarchy.build u.classes u.functions = .ok h ∧
      IsLeast {H | Closed h options.returnFlow u H} H ∧
      (∀ caller target confidence, .call caller target .pointer confidence ∈ p.graph.features ↔
        confidence = .may ∧ ∃ site ∈ u.callSites, ∃ slot, site.caller = caller ∧
          site.target = .pointer slot ∧ .function target ∈ H slot) ∧
      (∀ caller target confidence,
        .call caller target .memberPointer confidence ∈ p.graph.features ↔
          confidence = .may ∧ ∃ site ∈ u.callSites, ∃ slot receiver f, site.caller = caller ∧
            site.target = .memberPointer slot receiver ∧ .function f ∈ H slot ∧
            target ∈ h.memberPointerTargets f receiver) ∧
      ∀ caller text reason, p.graph.Unresolved caller text reason ↔
        ∃ site ∈ u.callSites, ∃ slot, site.caller = caller ∧ site.CallsThrough slot ∧
          text = site.label.getD slot.text ∧
          (reason = .returnValue ∧ .blocked ∈ H slot ∨ reason = .emptyAliasSet ∧ H slot = ∅) := by
  obtain ⟨r, hr, hreports⟩ := UnitGraph.exists_resolution_of_analyse hok
  refine ⟨r.hierarchy, r.held ∘ r.hierarchy.canonical, r.build, r.isLeast_closed, ?_, ?_, ?_⟩
  · intro caller target confidence
    rw [hr, r.call_mem_features_of_added, derived_pointer_iff]
    rfl
  · intro caller target confidence
    rw [hr, r.call_mem_features_of_added, derived_memberPointer_iff]
    rfl
  · intro caller text reason
    rw [hreports]
    simp only [unsettled_iff]
    constructor
    · rintro ⟨site, hsite, hcaller, slot, hunsettled⟩
      exact ⟨site, hsite, slot, hcaller, hunsettled⟩
    · rintro ⟨site, hsite, slot, hcaller, hunsettled⟩
      exact ⟨site, hsite, hcaller, slot, hunsettled⟩

/-- A function is stored in one field of a union and called through another one.  Nothing is stored
in the variable that a second call goes through. -/
def sharedField : TranslationUnit where
  name := "use"
  functions := [{ key := "main", defined := true }, { key := "idle", defined := true },
    { key := "handler", defined := true }]
  classes := [{ key := "U", isUnion := true
                fields := [{ name := "a", isPointer := true },
                  { name := "b", isPointer := true }] }]
  callSites := [{ caller := "main", target := .pointer (.field "U" "b") },
    { caller := "idle", target := .pointer (.global "unset") }]
  assignments := [{ source := .function "handler", destination := .field "U" "a" }]

theorem sharedField_exact : ∃ p h H, UnitGraph.analyse {} false 0 sharedField = .ok p ∧
    Hierarchy.build sharedField.classes sharedField.functions = .ok h ∧
    IsLeast {H | Closed h .unresolved sharedField H} H ∧ .function "handler" ∈ H (.field "U" "b") ∧
    H (.global "unset") = ∅ := by
  obtain ⟨p, hok, hcalls, hreports⟩ : ∃ p, UnitGraph.analyse {} false 0 sharedField = .ok p ∧
      p.graph.calls = [⟨"main", "handler", .pointer, .may, some "use"⟩] ∧
      p.graph.diagnostics = [⟨.unresolvedCall "idle" "global unset" .emptyAliasSet, some "use"⟩] :=
    ⟨_, by cbv, by cbv, by cbv⟩
  obtain ⟨h, H, hbuild, hleast, hpointer, -, hunresolved⟩ := indirectCalls_exact hok
  refine ⟨p, h, H, hok, hbuild, hleast, ?_, ?_⟩
  · have hcall : .call "main" "handler" .pointer .may ∈ p.graph.features := by
      rw [Graph.call_mem_features, hcalls]
      decide
    obtain ⟨-, site, hsite, slot, hcaller, htarget, hheld⟩ := (hpointer _ _ _).mp hcall
    simp only [sharedField, List.mem_cons, List.not_mem_nil, or_false] at hsite
    obtain rfl | rfl := hsite
    · obtain rfl := CallTarget.pointer.inj htarget
      exact hheld
    · exact absurd hcaller (by decide)
  · have hreport : p.graph.Unresolved "idle" "global unset" .emptyAliasSet :=
      ⟨_, hreports ▸ List.mem_singleton_self _, rfl⟩
    obtain ⟨site, hsite, slot, hcaller, hthrough, -, ⟨hreason, -⟩ | ⟨-, hempty⟩⟩ :=
      (hunresolved _ _ _).mp hreport
    · exact absurd hreason (by decide)
    · simp only [sharedField, List.mem_cons, List.not_mem_nil, or_false] at hsite
      obtain rfl | rfl := hsite
      · exact absurd hcaller (by decide)
      · obtain htarget | ⟨_, htarget⟩ := hthrough
        · obtain rfl := CallTarget.pointer.inj htarget
          exact hempty
        · exact absurd htarget (by simp)

end CallGraphs
