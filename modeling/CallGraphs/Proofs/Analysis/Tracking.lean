import CallGraphs.Proofs.Analysis.Reaching

/-!
# Following the results of calls

The result of a call is either followed or taken for unknown, as the options say.
The two ways are compared on the same unit (`UnitGraph.track_refines`).  Following
results finds no fewer calls and reports no more, and it finds no other calls
unless the result of a call reaches a slot that is called through, which is then
reported.

The constraints of the two runs are the same up to where the results of calls
come from (`Followed`).  So a solution of the one side can be turned into a
solution of the other (`Solves.of_related`), and the least solutions are compared
through three such turns:

* every slot that may hold what it holds when results are followed, or an unknown
  result, is a solution when they are not (`function_mem_of_unresolved`);
* nothing that is followed is unknown (`blocked_notMem_of_track`);
* a slot that holds an unknown result may as well hold anything
  (`function_mem_of_track`).
-/

namespace CallGraphs

namespace Flow

/-! ## Constraints that differ in their origins -/

section Related

variable {φ : Type} {R : Origin φ → Origin φ → Prop} {name : φ → FunctionKey}

/-- Arguments that are the same up to where they come from. -/
abbrev ArgsRelated (R : Origin φ → Origin φ → Prop) :
    List (Option (Origin φ)) → List (Option (Origin φ)) → Prop :=
  List.Forall₂ (Option.Rel R)

/-- Two constraints are the same up to where something flows from. -/
inductive Constraint.Related (R : Origin φ → Origin φ → Prop) : Constraint φ → Constraint φ → Prop
  | flow {o o' : Origin φ} {target : Slot} : R o o' → Related R (.flow o target) (.flow o' target)
  | call {callee : φ} {args args' : List (Option (Origin φ))} {explicit : Nat} :
      ArgsRelated R args args' →
      Related R (.call callee args explicit) (.call callee args' explicit)
  | callThrough {through : Slot} {args args' : List (Option (Origin φ))} {explicit : Nat}
      {expand : Bool} : ArgsRelated R args args' →
      Related R (.callThrough through args explicit expand)
        (.callThrough through args' explicit expand)
  | default {f : φ} {index : Nat} {o o' : Origin φ} : R o o' →
      Related R (.default f index o) (.default f index o')
  | overrider {f g : φ} : Related R (.overrider f g) (.overrider f g)

theorem ArgsRelated.getElem? {args args' : List (Option (Origin φ))} (h : ArgsRelated R args args')
    {i : Nat} {o : Origin φ} (hi : args[i]? = some (some o)) :
    ∃ o', args'[i]? = some (some o') ∧ R o o' := by
  induction h generalizing i with
  | nil => exact absurd hi (by simp)
  | cons hhead _ ih =>
      cases i with
      | zero =>
          obtain rfl := Option.some.inj hi
          cases hhead with
          | some hR => exact ⟨_, rfl, hR⟩
      | succ i => exact ih hi

section Turn

variable {cs cs' : Set (Constraint φ)} {F G : Family φ}
  (hcs : ∀ c ∈ cs, ∃ c' ∈ cs', Constraint.Related R c c')
  (hheld : ∀ through args explicit expand f, .callThrough through args explicit expand ∈ cs →
    .function f ∈ F through → .function f ∈ G through)
include hcs hheld

/-- What is called on the one side is called on the other. -/
theorem Called.of_related {f : φ} {args : List (Option (Origin φ))} {explicit : Nat}
    (h : Called cs F f args explicit) :
    ∃ args', ArgsRelated R args args' ∧ Called cs' G f args' explicit := by
  cases h with
  | known hc =>
      obtain ⟨c', hc', hrelated⟩ := hcs _ hc
      cases hrelated with
      | call hargs => exact ⟨_, hargs, .known hc'⟩
  | held hc hf =>
      obtain ⟨c', hc', hrelated⟩ := hcs _ hc
      cases hrelated with
      | callThrough hargs => exact ⟨_, hargs, .held hc' (hheld _ _ _ _ _ hc hf)⟩
  | overrider hc hg ho =>
      obtain ⟨c', hc', hrelated⟩ := hcs _ hc
      obtain ⟨o', ho', hsame⟩ := hcs _ ho
      cases hsame with
      | overrider =>
      cases hrelated with
      | callThrough hargs => exact ⟨_, hargs, .overrider hc' (hheld _ _ _ _ _ hc hg) ho'⟩

/-- What flows on the one side flows on the other. -/
theorem Flows.of_related {o : Origin φ} {key : Slot} (h : Flows cs name F o key) :
    ∃ o', R o o' ∧ Flows cs' name G o' key := by
  cases h with
  | given hc =>
      obtain ⟨c', hc', hrelated⟩ := hcs _ hc
      cases hrelated with
      | flow hR => exact ⟨_, hR, .given hc'⟩
  | argument hcall hi =>
      obtain ⟨args', hargs, hcall'⟩ := hcall.of_related hcs hheld
      obtain ⟨o', hi', hR⟩ := hargs.getElem? hi
      exact ⟨o', hR, .argument hcall' hi'⟩
  | default hcall hd hle =>
      obtain ⟨_, -, hcall'⟩ := hcall.of_related hcs hheld
      obtain ⟨c', hc', hrelated⟩ := hcs _ hd
      cases hrelated with
      | default hR => exact ⟨_, hR, .default hcall' hc' hle⟩

/-- A solution of constraints that differ in their origins gives a solution, if a slot that takes in
the one origin takes in the other. -/
theorem Solves.of_related (hG : Solves cs' name G)
    (htakes : ∀ o o' key, R o o' → o'.content G ⊆ G key → o.content F ⊆ F key) :
    Solves cs name F := by
  intro o key hflow
  obtain ⟨o', hR, hflow'⟩ := hflow.of_related hcs hheld
  exact htakes o o' key hR (hG o' key hflow')

end Turn

end Related

end Flow

open CallGraphs.Flow

namespace PointerCalls

/-! ## Facts under both ways -/

section Facts

variable {h : Hierarchy} {flow flow' : ReturnFlow}
  {R : Origin FunctionKey → Origin FunctionKey → Prop}
  (hR : ∀ source, Option.Rel R (originOf h flow source) (originOf h flow' source))
include hR

theorem related_originsOf (args : List (Option PointerSource)) :
    ArgsRelated R (originsOf h flow args) (originsOf h flow' args) := by
  rw [originsOf, originsOf, ArgsRelated, List.forall₂_map_left_iff, List.forall₂_map_right_iff,
    List.forall₂_same]
  intro arg _
  cases arg with
  | none => exact .none
  | some source => exact hR source

/-- The constraints of a source that may flow nowhere. -/
theorem exists_related_of_origin {wrap : Origin FunctionKey → Constraint FunctionKey}
    (hwrap : ∀ o o', R o o' → Constraint.Related R (wrap o) (wrap o')) {source : PointerSource}
    {c : Constraint FunctionKey} (hc : c ∈ (originOf h flow source).toList.map wrap) :
    ∃ c' ∈ (originOf h flow' source).toList.map wrap, Constraint.Related R c c' := by
  obtain ⟨o, ho, rfl⟩ := List.mem_map.mp hc
  have hsource := hR source
  rw [Option.mem_toList.mp ho] at hsource
  generalize horigin : originOf h flow' source = origin at hsource
  cases hsource with
  | some hoo =>
      exact ⟨_, List.mem_map_of_mem (Option.mem_toList.mpr rfl), hwrap _ _ hoo⟩

theorem exists_related_of_site {site : CallSite} {c : Constraint FunctionKey}
    (hc : c ∈ ofSite h flow site) : ∃ c' ∈ ofSite h flow' site, Constraint.Related R c c' := by
  have hargs := related_originsOf hR site.args
  rw [ofSite] at hc ⊢
  cases htarget : site.target with
  | direct callee =>
      rw [htarget] at hc
      obtain rfl := List.mem_singleton.mp hc
      exact ⟨_, List.mem_singleton_self _, .call hargs⟩
  | virtual receiver method =>
      rw [htarget] at hc
      dsimp only at hc ⊢
      cases hd : h.dispatch receiver method with
      | error failure =>
          rw [hd] at hc
          exact absurd hc List.not_mem_nil
      | ok d =>
          rw [hd] at hc
          obtain ⟨callee, hcallee, rfl⟩ := List.mem_map.mp hc
          exact ⟨_, List.mem_map_of_mem hcallee, .call hargs⟩
  | pointer slot =>
      rw [htarget] at hc
      obtain rfl := List.mem_singleton.mp hc
      exact ⟨_, List.mem_singleton_self _, .callThrough hargs⟩
  | memberPointer slot receiver =>
      rw [htarget] at hc
      obtain rfl := List.mem_singleton.mp hc
      exact ⟨_, List.mem_singleton_self _, .callThrough hargs⟩
  | implicit =>
      rw [htarget] at hc
      exact absurd hc List.not_mem_nil

/-- The facts of a unit ask for the same constraints up to where sources flow from. -/
theorem exists_related_of_asked {u : TranslationUnit} {shown : Set Feature}
    {c : Constraint FunctionKey} (hc : c ∈ asked h flow u shown) :
    ∃ c' ∈ asked h flow' u shown, Constraint.Related R c c' := by
  rcases hc with hc | hc | hc | hc
  · obtain ⟨r, hr, hc⟩ := List.mem_flatMap.mp hc
    obtain ⟨d, hd, hc⟩ := List.mem_flatMap.mp hc
    obtain ⟨c', hc', hrelated⟩ := exists_related_of_origin hR (fun _ _ => .default) hc
    exact ⟨c', Or.inl (List.mem_flatMap.mpr ⟨r, hr, List.mem_flatMap.mpr ⟨d, hd, hc'⟩⟩), hrelated⟩
  · obtain ⟨a, ha, hc⟩ := List.mem_flatMap.mp hc
    obtain ⟨c', hc', hrelated⟩ := exists_related_of_origin hR (fun _ _ => .flow) hc
    exact ⟨c', Or.inr (Or.inl (List.mem_flatMap.mpr ⟨a, ha, hc'⟩)), hrelated⟩
  · obtain ⟨site, hsite, hc⟩ := List.mem_flatMap.mp hc
    obtain ⟨c', hc', hrelated⟩ := exists_related_of_site hR hc
    exact ⟨c', mem_asked_of_site hsite hc', hrelated⟩
  · obtain ⟨f, hf, other, hother, hnode, hnode', rfl⟩ := hc
    exact ⟨_, Or.inr (Or.inr (Or.inr ⟨f, hf, other, hother, hnode, hnode', rfl⟩)), .overrider⟩

end Facts

/-- Where something flows from if results are not followed, and if they are. -/
inductive Followed : Origin FunctionKey → Origin FunctionKey → Prop
  | same {o : Origin FunctionKey} : o ≠ .item .blocked → Followed o o
  | result {callee : FunctionKey} : Followed (.item .blocked) (.slot (.result callee))

theorem followed_originOf (h : Hierarchy) (source : PointerSource) :
    Option.Rel Followed (originOf h .unresolved source) (originOf h .track source) := by
  cases source with
  | function key => exact .some (.same (by simp))
  | lambda key => exact .some (.same (by simp))
  | slot slot => exact .some (.same (by simp))
  | callResult callee => exact .some .result
  | null => exact .none

/-- A unit calls through a slot that may hold the result of a call that is not followed. -/
def Hidden (h : Hierarchy) (held : Family FunctionKey) (u : TranslationUnit) : Prop :=
  ∃ site ∈ u.callSites, ∃ slot kind receiver, indirect? site = some (slot, kind, receiver) ∧
    .blocked ∈ held (h.canonical slot)

/-- Whatever is called through is called through by a site. -/
theorem exists_site_of_callThrough {h : Hierarchy} {flow : ReturnFlow} {u : TranslationUnit}
    {shown : Set Feature} {through : Slot} {args : List (Option (Origin FunctionKey))}
    {explicit : Nat} {expand : Bool}
    (hc : .callThrough through args explicit expand ∈ asked h flow u shown) :
    ∃ site ∈ u.callSites, ∃ slot kind receiver, indirect? site = some (slot, kind, receiver) ∧
      h.canonical slot = through := by
  rcases hc with hc | hc | hc | ⟨f, -, other, -, -, -, heq⟩
  · simp [ofRecord, ofDefault] at hc
  · simp [ofAssignment] at hc
  · obtain ⟨site, hsite, hc⟩ := List.mem_flatMap.mp hc
    refine ⟨site, hsite, ?_⟩
    rw [ofSite] at hc
    rw [indirect?]
    cases htarget : site.target with
    | pointer slot =>
        rw [htarget] at hc
        obtain ⟨rfl, -⟩ := Constraint.callThrough.inj (List.mem_singleton.mp hc)
        exact ⟨slot, _, _, rfl, rfl⟩
    | memberPointer slot receiver =>
        rw [htarget] at hc
        obtain ⟨rfl, -⟩ := Constraint.callThrough.inj (List.mem_singleton.mp hc)
        exact ⟨slot, _, _, rfl, rfl⟩
    | virtual receiver method =>
        rw [htarget] at hc
        dsimp only at hc
        split at hc
        · simp at hc
        · exact absurd hc List.not_mem_nil
    | _ =>
        rw [htarget] at hc
        simp at hc
  · exact absurd heq (by simp)

/-! ## The least solutions compared -/

section Compared

variable {h : Hierarchy} {u : TranslationUnit} {shown : Set Feature} {U T : Family FunctionKey}
  (hU : IsLeast {F | Solves (asked h .unresolved u shown) id F} U)
  (hT : IsLeast {F | Solves (asked h .track u shown) id F} T)
include hU hT

/-- Whatever is found without following results is found with it. -/
theorem function_mem_of_unresolved {slot : Slot} {f : FunctionKey} (hf : .function f ∈ U slot) :
    .function f ∈ T slot := by
  let F : Family FunctionKey := fun slot => {x | x ∈ T slot ∨ x = .blocked}
  have hsolves : Solves (asked h .unresolved u shown) id F := by
    refine Solves.of_related (fun _ hc => exists_related_of_asked (followed_originOf h) hc)
      (fun through _ _ _ f _ hf => hf.resolve_right (by simp)) hT.1 ?_
    intro o o' key hR htakes x hx
    cases hR with
    | result => exact Or.inr hx
    | same _ =>
        cases o with
        | slot slot => exact hx.imp_left fun hx => htakes hx
        | item y => exact Or.inl (htakes hx)
  exact (hU.2 hsolves slot hf).resolve_right (by simp)

/-- What is found by following results is found without it, unless an unknown result is called. -/
theorem function_mem_of_track (hhidden : ¬ Hidden h U u) {site : CallSite}
    (hsite : site ∈ u.callSites) {slot : Slot} {kind : EdgeKind} {receiver : Option String}
    (hindirect : indirect? site = some (slot, kind, receiver)) {f : FunctionKey}
    (hf : .function f ∈ T (h.canonical slot)) : .function f ∈ U (h.canonical slot) := by
  let F : Family FunctionKey := fun slot => {x | x ∈ U slot ∨ .blocked ∈ U slot}
  have hsolves : Solves (asked h .track u shown) id F := by
    refine Solves.of_related (R := fun o o' => Followed o' o)
      (fun _ hc => exists_related_of_asked (fun source => ?_) hc) ?_ hU.1 ?_
    · have hsource := followed_originOf h source
      generalize originOf h .unresolved source = o, originOf h .track source = o' at hsource ⊢
      cases hsource with
      | some hR => exact .some hR
      | none => exact .none
    · -- no slot that is called through holds an unknown result
      intro through args explicit expand f hc hf
      obtain ⟨site, hsite, slot, kind, receiver, hindirect, rfl⟩ := exists_site_of_callThrough hc
      exact hf.resolve_right fun hblocked =>
        hhidden ⟨site, hsite, slot, kind, receiver, hindirect, hblocked⟩
    · intro o o' key hR htakes x hx
      cases hR with
      | result => exact Or.inr (htakes rfl)
      | same _ =>
          cases o with
          | slot slot => exact hx.imp (fun hx => htakes hx) fun hblocked => htakes hblocked
          | item y => exact Or.inl (htakes hx)
  exact (hT.2 hsolves _ hf).resolve_right fun hblocked =>
    hhidden ⟨site, hsite, slot, kind, receiver, hindirect, hblocked⟩

omit hU in
/-- If results are followed, then no slot holds an unknown one. -/
theorem blocked_notMem_of_track (slot : Slot) : .blocked ∉ T slot := by
  intro hblocked
  let F : Family FunctionKey := fun slot => {x | x ∈ T slot ∧ x ≠ .blocked}
  have hsolves : Solves (asked h .track u shown) id F := by
    refine Solves.of_related (R := fun o o' => o = o' ∧ o ≠ .item .blocked)
      (fun _ hc => exists_related_of_asked (fun source => ?_) hc)
      (fun through _ _ _ f _ hf => hf.1) hT.1 ?_
    · cases source with
      | null => exact .none
      | _ => exact .some ⟨rfl, by simp⟩
    · rintro o _ key ⟨rfl, hne⟩ htakes x hx
      cases o with
      | slot slot => exact ⟨htakes hx.1, hx.2⟩
      | item y =>
          obtain rfl : x = y := hx
          exact ⟨htakes rfl, fun heq => hne (heq ▸ rfl)⟩
  exact (hT.2 hsolves slot hblocked).2 rfl

end Compared

end PointerCalls

/-! ## Calls and reports -/

/-- Only what the slots hold that a unit calls through matters for its calls. -/
theorem Derived.of_held (options : Options) (flow flow' : ReturnFlow) {u : TranslationUnit}
    {h : Hierarchy} {held held' : Family FunctionKey}
    (hheld : ∀ site ∈ u.callSites, ∀ slot kind receiver,
      PointerCalls.indirect? site = some (slot, kind, receiver) →
      ∀ f, .function f ∈ held (h.canonical slot) → .function f ∈ held' (h.canonical slot))
    {a b : FunctionKey} {k : EdgeKind} {c : Confidence}
    (hderived : Derived { options with returnFlow := flow } u h held a b k c) :
    Derived { options with returnFlow := flow' } u h held' a b k c := by
  cases hderived with
  | site hsite hcalls =>
      refine .site hsite ?_
      cases hcalls with
      | direct htarget => exact .direct htarget
      | dispatched htarget hd hmem => exact .dispatched htarget hd hmem
      | madeUp htarget hd => exact .madeUp htarget hd
      | pointer htarget hf =>
          refine .pointer htarget (hheld _ hsite _ .pointer none ?_ _ hf)
          rw [PointerCalls.indirect?, htarget]
      | @memberPointer _ receiver _ _ htarget hf hmem =>
          refine .memberPointer htarget (hheld _ hsite _ .memberPointer receiver ?_ _ hf) hmem
          rw [PointerCalls.indirect?, htarget]
  | event hcapture he hknown hb => exact .event hcapture he hknown hb
  | part hcapture hdefined hspelled hpart => exact .part hcapture hdefined hspelled hpart

namespace UnitGraph

/-- Following the results of calls finds what is found without, and more only if a result is
reported; it reports no result, and no call that would not be reported without. -/
theorem track_refines {options : Options} {cancelled : Bool} {index : Nat} {u : TranslationUnit}
    {p q : UnitGraph}
    (hp : analyse { options with returnFlow := .unresolved } cancelled index u = .ok p)
    (hq : analyse { options with returnFlow := .track } cancelled index u = .ok q) :
    (∀ caller callee kind confidence, .call caller callee kind confidence ∈ p.graph.features →
      .call caller callee kind confidence ∈ q.graph.features) ∧
    (∀ caller text, ¬ q.graph.Unresolved caller text .returnValue) ∧
    (∀ caller text reason, q.graph.Unresolved caller text reason →
      ∃ reason', p.graph.Unresolved caller text reason') ∧
    ((∀ caller text, ¬ p.graph.Unresolved caller text .returnValue) →
      ∀ caller callee kind confidence, .call caller callee kind confidence ∈ p.graph.features ↔
        .call caller callee kind confidence ∈ q.graph.features) := by
  obtain ⟨r, hr, hreported⟩ := exists_resolution_of_analyse hp
  obtain ⟨r', hr', hreported'⟩ := exists_resolution_of_analyse hq
  have hU := r.isLeast_univ
  have hT := r'.isLeast_univ
  have hh : r'.hierarchy = r.hierarchy := Except.ok.inj (r'.build.symm.trans r.build)
  simp only [hr, hr', hreported, hreported', Resolution.call_mem_features_of_added]
  rw [hh] at hT ⊢
  have hcalls : ∀ {caller callee kind confidence},
      Derived { options with returnFlow := .unresolved } u r.hierarchy r.held caller callee kind
        confidence →
      Derived { options with returnFlow := .track } u r.hierarchy r'.held caller callee kind
        confidence :=
    Derived.of_held options _ _ fun _ _ _ _ _ _ _ hf =>
      PointerCalls.function_mem_of_unresolved hU hT hf
  refine ⟨fun _ _ _ _ => hcalls, ?_, ?_, ?_⟩
  · rintro caller text ⟨site, -, -, hunsettled⟩
    cases hunsettled with
    | returnValue _ hblocked => exact PointerCalls.blocked_notMem_of_track hT _ hblocked
  · rintro caller text reason ⟨site, hsite, hcaller, hunsettled⟩
    cases hunsettled with
    | returnValue _ hblocked => exact absurd hblocked (PointerCalls.blocked_notMem_of_track hT _)
    | @emptyAliasSet slot _ _ hindirect hempty =>
        -- without following results, the slot holds no function either
        by_cases hblocked : .blocked ∈ r.held (r.hierarchy.canonical slot)
        · exact ⟨_, site, hsite, hcaller, .returnValue hindirect hblocked⟩
        · refine ⟨_, site, hsite, hcaller, .emptyAliasSet hindirect ?_⟩
          refine Set.eq_empty_of_forall_notMem fun x hx => ?_
          cases x with
          | blocked => exact hblocked hx
          | function f =>
              have hf := PointerCalls.function_mem_of_unresolved hU hT hx
              rw [hempty] at hf
              exact hf
  · intro hnone caller callee kind confidence
    refine ⟨hcalls, Derived.of_held options _ _ ?_⟩
    intro site hsite slot kind receiver hindirect f hf
    refine PointerCalls.function_mem_of_track hU hT ?_ hsite hindirect hf
    rintro ⟨site, hsite, slot, kind, receiver, hindirect, hblocked⟩
    exact hnone _ _ ⟨site, hsite, rfl, .returnValue hindirect hblocked⟩

/-- A call through a variable that `first` is stored in.  What `choose` returns, `second`, is stored
in a given place. -/
def storedResult (destination : Slot) : TranslationUnit where
  name := "use"
  functions := [{ key := "main", defined := true }, { key := "choose", defined := true },
    { key := "first", defined := true }, { key := "second", defined := true }]
  callSites := [{ caller := "main", target := .pointer (.global "callback") }]
  assignments := [{ source := .function "first", destination := .global "callback" },
    { source := .callResult "choose", destination := destination },
    { source := .function "second", destination := .result "choose" }]

/-- A result in the variable is called if it is followed, and one in another place is not. -/
theorem storedResult_track :
    (∃ p q, analyse { returnFlow := .unresolved } false 0 (storedResult (.global "callback")) =
        .ok p ∧
      analyse { returnFlow := .track } false 0 (storedResult (.global "callback")) = .ok q ∧
      p.graph.Unresolved "main" "global callback" .returnValue ∧
      (∀ caller text, ¬ q.graph.Unresolved caller text .returnValue) ∧
      p.graph.calls ≠ q.graph.calls ∧ .call "main" "first" .pointer .may ∈ q.graph.features) ∧
    ∃ p q, analyse { returnFlow := .unresolved } false 0 (storedResult (.global "other")) = .ok p ∧
      analyse { returnFlow := .track } false 0 (storedResult (.global "other")) = .ok q ∧
      .call "main" "first" .pointer .may ∈ p.graph.features ∧
      ∀ caller callee kind confidence, .call caller callee kind confidence ∈ p.graph.features ↔
        .call caller callee kind confidence ∈ q.graph.features := by
  constructor
  · obtain ⟨p, q, hp, hq, hreport, hdiffers, hcall⟩ : ∃ p q,
        analyse { returnFlow := .unresolved } false 0 (storedResult (.global "callback")) = .ok p ∧
        analyse { returnFlow := .track } false 0 (storedResult (.global "callback")) = .ok q ∧
        p.graph.diagnostics =
          [⟨.unresolvedCall "main" "global callback" .returnValue, some "use"⟩] ∧
        p.graph.calls ≠ q.graph.calls ∧
        p.graph.calls = [⟨"main", "first", .pointer, .may, some "use"⟩] :=
      ⟨_, _, by cbv, by cbv, by cbv, by decide, by cbv⟩
    obtain ⟨hmore, hnone, -⟩ := @track_refines {} _ _ _ _ _ hp hq
    refine ⟨p, q, hp, hq, ⟨_, hreport ▸ List.mem_singleton_self _, rfl⟩, hnone, hdiffers,
      hmore _ _ _ _ ?_⟩
    rw [Graph.call_mem_features, hcall]
    decide
  · obtain ⟨p, q, hp, hq, hreports, hcall⟩ : ∃ p q,
        analyse { returnFlow := .unresolved } false 0 (storedResult (.global "other")) = .ok p ∧
        analyse { returnFlow := .track } false 0 (storedResult (.global "other")) = .ok q ∧
        p.graph.diagnostics = [] ∧
        p.graph.calls = [⟨"main", "first", .pointer, .may, some "use"⟩] :=
      ⟨_, _, by cbv, by cbv, by cbv, by cbv⟩
    have hsilent : ∀ caller text, ¬ p.graph.Unresolved caller text .returnValue := by
      rintro caller text ⟨d, hd, -⟩
      rw [hreports] at hd
      exact absurd hd List.not_mem_nil
    obtain ⟨-, -, -, hsame⟩ := @track_refines {} _ _ _ _ _ hp hq
    refine ⟨p, q, hp, hq, ?_, hsame hsilent⟩
    rw [Graph.call_mem_features, hcall]
    decide

end UnitGraph

end CallGraphs
