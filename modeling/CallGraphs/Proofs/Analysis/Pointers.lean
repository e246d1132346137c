import CallGraphs.Analysis.PointerCalls
import CallGraphs.Proofs.Flow.Fixpoint
import CallGraphs.Proofs.Graph.Features
import Mathlib.Data.List.Forall2

/-!
# What the pass for pointers adds

The pass turns facts into a flow program over node numbers and slot places,
solves it and adds edges.  Here the same is said by keys.  The facts ask for
constraints between functions and slots (`asked`), of which only the overriders
depend on the graph: they count if they are in it.  Whatever order the pass
takes, whatever numbers it hands out, the edges that it adds are those that the
least solution of these constraints gives (`adds_run`).
-/

namespace CallGraphs

namespace PointerCalls

open CallGraphs.Graph CallGraphs.Flow

/-! ## Facts as constraints -/

section Facts

variable (h : Hierarchy) (returnFlow : ReturnFlow)

/-- Where a source flows from. -/
def originOf : PointerSource → Option (Origin FunctionKey)
  | .function key | .lambda key => some (.item (.function key))
  | .slot slot => some (.slot (h.canonical slot))
  | .callResult callee =>
    match returnFlow with
    | .track => some (.slot (.result callee))
    | .unresolved => some (.item .blocked)
  | .null => none

/-- Where arguments flow from. -/
def originsOf (args : List (Option PointerSource)) : List (Option (Origin FunctionKey)) :=
  args.map (·.bind (originOf h returnFlow))

/-- The constraints of a default argument. -/
def ofDefault (function : FunctionKey) (d : DefaultArg) : List (Constraint FunctionKey) :=
  (originOf h returnFlow d.value).toList.map (.default function d.index)

/-- The constraints of the default arguments of a function. -/
def ofRecord (r : FunctionRecord) : List (Constraint FunctionKey) :=
  r.defaultArgs.flatMap (ofDefault h returnFlow r.key)

/-- The constraints of an assignment. -/
def ofAssignment (a : Assignment) : List (Constraint FunctionKey) :=
  (originOf h returnFlow a.source).toList.map (.flow · (h.canonical a.destination))

/-- The constraints of a call site. -/
def ofSite (site : CallSite) : List (Constraint FunctionKey) :=
  match site.target with
  | .direct callee => [.call callee (originsOf h returnFlow site.args) site.explicitArgs]
  | .virtual receiver method =>
    match h.dispatch receiver method with
    | .ok d => d.targets.toList.map (.call · (originsOf h returnFlow site.args) site.explicitArgs)
    | .error _ => []
  | .pointer slot =>
    [.callThrough (h.canonical slot) (originsOf h returnFlow site.args) site.explicitArgs false]
  | .memberPointer slot _ =>
    [.callThrough (h.canonical slot) (originsOf h returnFlow site.args) site.explicitArgs true]
  | .implicit .. => []

/-- The constraints of the facts of a unit, over a graph that shows so much. -/
def asked (u : TranslationUnit) (shown : Set Feature) : Set (Constraint FunctionKey) :=
  {c | c ∈ u.functions.flatMap (ofRecord h returnFlow) ∨
    c ∈ u.assignments.flatMap (ofAssignment h returnFlow) ∨
    c ∈ u.callSites.flatMap (ofSite h returnFlow) ∨
    ∃ f ∈ h.virtuals, ∃ other ∈ h.overriders f,
      .node f ∈ shown ∧ .node other ∈ shown ∧ c = .overrider f other}

variable {h returnFlow} in
theorem asked_mono {u : TranslationUnit} {shown more : Set Feature} (hsub : shown ⊆ more) :
    asked h returnFlow u shown ⊆ asked h returnFlow u more := by
  intro c hc
  refine hc.imp_right (Or.imp_right (Or.imp_right ?_))
  rintro ⟨f, hf, other, hother, hfs, hos, rfl⟩
  exact ⟨f, hf, other, hother, hsub hfs, hsub hos, rfl⟩

/-- The functions that a source refers to. -/
def sourceNodes : PointerSource → Set Feature
  | .function key | .lambda key => {.node key}
  | .slot _ | .callResult _ | .null => ∅

/-- The functions that arguments refer to. -/
def argNodes (args : List (Option PointerSource)) : Set Feature :=
  gather args fun arg => gather arg.toList sourceNodes

/-- The functions that the default arguments of a function refer to. -/
def recordNodes (r : FunctionRecord) : Set Feature :=
  {x | r.defaultArgs ≠ [] ∧ x = .node r.key} ∪ gather r.defaultArgs fun d => sourceNodes d.value

/-- The functions that a call site refers to. -/
def siteNodes (site : CallSite) : Set Feature :=
  match site.target with
  | .direct callee => {.node callee} ∪ argNodes site.args
  | .virtual receiver method =>
    match h.dispatch receiver method with
    | .ok d => argNodes site.args ∪ gather d.targets.toList fun f => {.node f}
    | .error _ => ∅
  | .pointer _ | .memberPointer .. => argNodes site.args
  | .implicit .. => ∅

/-- The functions that the facts of a unit refer to. -/
def referred (u : TranslationUnit) : Set Feature :=
  gather u.functions recordNodes ∪ gather u.assignments (fun a => sourceNodes a.source) ∪
    gather u.callSites (siteNodes h)

end Facts

/-! ## States by keys -/

/-- The constraints that the program of a state holds, read by keys. -/
def Holds (st : State) (ks : List (Constraint FunctionKey)) : Prop :=
  ∃ cs, st.program.Built cs ∧ (∀ c ∈ cs, c.Over (· < st.graph.size)) ∧
    cs.map (.map st.graph.keyOf) = ks

/-- A state comes from another one: the graph shows more, slots keep their places, and more
constraints are asked for. -/
structure Step (st st' : State) (S : Set Feature) (ks : List (Constraint FunctionKey)) : Prop
    extends Adds st.graph st'.graph S where
  slots : st.program.keys <+: st'.program.keys
  asks : ∀ old, Holds st old → Holds st' (old ++ ks)

namespace Step

variable {st st' st'' : State} {S T : Set Feature} {ks ks' : List (Constraint FunctionKey)}

theorem trans (h : Step st st' S ks) (h' : Step st' st'' T ks') :
    Step st st'' (S ∪ T) (ks ++ ks') where
  toAdds := h.toAdds.trans h'.toAdds
  slots := h.slots.trans h'.slots
  asks old hold := by
    rw [← List.append_assoc]
    exact h'.asks _ (h.asks old hold)

theorem congr (h : Step st st' S ks) (hS : S = T) (hks : ks = ks') : Step st st' T ks' :=
  hS ▸ hks ▸ h

/-- Only the graph grows.  The functions that are mentioned keep their keys. -/
theorem of_adds {g : Graph} (hadds : Adds st.graph g S) : Step st { st with graph := g } S [] where
  toAdds := hadds
  slots := List.prefix_refl _
  asks := by
    rintro _ ⟨cs, hbuilt, hover, rfl⟩
    have hle := size_le_of_isPrefix hadds.keys
    refine ⟨cs, hbuilt, fun c hc => (hover c hc).imp fun f hf => hf.trans_le hle, ?_⟩
    rw [List.append_nil]
    exact List.map_congr_left fun c hc =>
      Constraint.map_congr (fun f hf => keyOf_of_isPrefix hadds.keys hf) (hover c hc)

/-- Only the program changes. -/
theorem of_built (p : Program) (cs : List (Constraint NodeId)) (hg : st.graph.WellFormed)
    (hslots : st.program.keys <+: p.keys)
    (hbuilt : ∀ old, st.program.Built old → p.Built (old ++ cs))
    (hover : ∀ c ∈ cs, c.Over (· < st.graph.size)) :
    Step st { st with program := p } ∅ (cs.map (.map st.graph.keyOf)) where
  toAdds := .refl hg
  slots := hslots
  asks := by
    rintro _ ⟨old, hold, hoverOld, rfl⟩
    refine ⟨old ++ cs, hbuilt old hold, fun c hc => ?_, List.map_append⟩
    exact (List.mem_append.mp hc).elim (hoverOld c) (hover c)

theorem refl (hg : st.graph.WellFormed) : Step st st ∅ [] :=
  .of_adds (.refl hg)

/-- A pass over a list, of whose states something may be known beside. -/
theorem foldl_of {α : Type} (I : State → Prop) (step : State → α → State) {S : α → Set Feature}
    {ks : α → List (Constraint FunctionKey)}
    (hstep : ∀ st a, st.graph.WellFormed → I st → Step st (step st a) (S a) (ks a) ∧ I (step st a))
    (l : List α) (hg : st.graph.WellFormed) (hI : I st) :
    Step st (l.foldl step st) (gather l S) (l.flatMap ks) ∧ I (l.foldl step st) := by
  induction l generalizing st with
  | nil => exact ⟨(refl hg).congr (gather_nil S).symm rfl, hI⟩
  | cons a l ih =>
      obtain ⟨hhead, hI'⟩ := hstep st a hg hI
      obtain ⟨htail, hlast⟩ := ih hhead.wellFormed hI'
      exact ⟨(hhead.trans htail).congr (gather_cons a l S).symm rfl, hlast⟩

theorem foldl {α : Type} (step : State → α → State) {S : α → Set Feature}
    {ks : α → List (Constraint FunctionKey)}
    (hstep : ∀ st a, st.graph.WellFormed → Step st (step st a) (S a) (ks a)) (l : List α)
    (hg : st.graph.WellFormed) : Step st (l.foldl step st) (gather l S) (l.flatMap ks) :=
  (foldl_of (fun _ => True) step (fun st a hg _ => ⟨hstep st a hg, trivial⟩) l hg trivial).1

end Step

/-! ## Values by keys -/

/-- What a value stands for, read by keys. -/
structure Reads (st : State) (v : Value) (o : Origin FunctionKey) : Prop where
  within : v.Within st.program.slots.length
  known : (st.program.origin v).Over (· < st.graph.size)
  map_eq : (st.program.origin v).map st.graph.keyOf = o

/-- What a value that may be absent stands for. -/
abbrev ReadsAs (st : State) : Option Value → Option (Origin FunctionKey) → Prop :=
  Option.Rel (Reads st)

section Reading

variable {st st' : State} {S : Set Feature} {ks : List (Constraint FunctionKey)}

theorem Reads.step {v : Value} {o : Origin FunctionKey} (h : Reads st v o)
    (hstep : Step st st' S ks) : Reads st' v o := by
  have hsize := size_le_of_isPrefix hstep.keys
  have hlength := hstep.slots.length_le
  rw [Program.length_keys, Program.length_keys] at hlength
  have horigin : st'.program.origin v = st.program.origin v :=
    Program.origin_of_isPrefix hstep.slots (by rw [Program.length_keys]; exact h.within)
  refine ⟨h.within.mono hlength, ?_, ?_⟩
  · rw [horigin]
    exact Origin.Over.imp h.known fun f hf => hf.trans_le hsize
  · rw [horigin, ← h.map_eq]
    exact Origin.map_congr (fun f hf => keyOf_of_isPrefix hstep.keys hf) h.known

theorem ReadsAs.step {v : Option Value} {o : Option (Origin FunctionKey)} (h : ReadsAs st v o)
    (hstep : Step st st' S ks) : ReadsAs st' v o := by
  cases h with
  | some h => exact .some (h.step hstep)
  | none => exact .none

variable {values : List (Option Value)} {os : List (Option (Origin FunctionKey))}

theorem argsWithin_of_reads (h : List.Forall₂ (ReadsAs st) values os) :
    ArgsWithin st.program.slots.length values := by
  induction h with
  | nil => exact fun v hv => absurd hv List.not_mem_nil
  | cons hhead _ ih =>
      intro v hv
      rcases List.mem_cons.mp hv with rfl | hv
      · cases hhead with
        | some h => exact h.within
      · exact ih v hv

theorem argsOver_of_reads (h : List.Forall₂ (ReadsAs st) values os) :
    ArgsOver (· < st.graph.size) (st.program.origins values) := by
  intro o ho
  induction h with
  | nil => exact absurd ho List.not_mem_nil
  | cons hhead _ ih =>
      rcases List.mem_cons.mp ho with heq | ho
      · cases hhead with
        | some h =>
            obtain rfl := Option.some.inj heq
            exact h.known
        | none => exact absurd heq (by simp)
      · exact ih ho

theorem mapArgs_of_reads (h : List.Forall₂ (ReadsAs st) values os) :
    mapArgs st.graph.keyOf (st.program.origins values) = os := by
  induction h with
  | nil => rfl
  | cons hhead _ ih =>
      refine congrArg₂ List.cons ?_ ih
      cases hhead with
      | some h => exact congrArg some h.map_eq
      | none => rfl

end Reading

/-! ## Facts step by step -/

section Steps

variable (c : Setting) {st : State}

theorem step_reference (hg : st.graph.WellFormed) (key : FunctionKey) (what : String) :
    Step st (reference c st key what).1 {.node key} [] :=
  .of_adds (c.scope.located_reference hg key what).toAdds

theorem nodeId?_reference (hg : st.graph.WellFormed) (key : FunctionKey) (what : String) :
    (reference c st key what).1.graph.nodeId? key = some (reference c st key what).2 :=
  (c.scope.located_reference hg key what).nodeId?

theorem reads_function {key : FunctionKey} {id : NodeId} (hid : st.graph.nodeId? key = some id) :
    Reads st (.function id) (.item (.function key)) :=
  ⟨trivial, lt_size_of_nodeId? hid,
    congrArg (fun key => Origin.item (.function key)) (keyOf_of_nodeId? hid)⟩

theorem step_intern (hg : st.graph.WellFormed) (slot : Slot) : Step st (intern st slot).1 ∅ [] := by
  refine .of_built (st.program.intern slot).1 [] hg (st.program.keys_intern slot)
    (fun old hold => ?_) (by simp)
  rw [List.append_nil]
  exact hold.intern slot

theorem getElem?_intern (slot : Slot) :
    (intern st slot).1.program.keys[(intern st slot).2]? = some slot :=
  Program.getElem?_of_slotId? (st.program.slotId?_intern slot)

theorem lt_length_intern (slot : Slot) :
    (intern st slot).2 < (intern st slot).1.program.slots.length := by
  rw [← Program.length_keys]
  exact (List.getElem?_eq_some_iff.mp (getElem?_intern slot)).1

theorem reads_intern (st : State) (slot : Slot) :
    Reads (intern st slot).1 (.slot (intern st slot).2) (.slot slot) :=
  ⟨lt_length_intern slot, trivial,
    congrArg Origin.slot (Program.keyAt_of_getElem? (getElem?_intern slot))⟩

theorem step_value (hg : st.graph.WellFormed) (source : PointerSource) :
    Step st (value c st source).1 (sourceNodes source) [] ∧
      ReadsAs (value c st source).1 (value c st source).2
        (originOf c.hierarchy c.returnFlow source) := by
  cases source with
  | function key =>
      exact ⟨step_reference c hg key _, .some (reads_function (nodeId?_reference c hg key _))⟩
  | lambda key =>
      have href := step_reference c hg key "lambda conversion"
      have hmark := adds_modifyNode_of_sameBody href.wellFormed
        (reference c st key "lambda conversion").2 (fun f => { f with isLambda := true })
        (fun _ => rfl) fun _ => rfl
      refine ⟨(href.trans (.of_adds hmark)).congr (Set.union_empty _) rfl,
        .some (reads_function ?_)⟩
      exact nodeId?_of_isPrefix hmark.keys (nodeId?_reference c hg key "lambda conversion")
  | slot slot => exact ⟨step_intern hg _, .some (reads_intern _ _)⟩
  | callResult callee =>
      simp only [value, originOf]
      cases c.returnFlow with
      | track => exact ⟨step_intern hg _, .some (reads_intern _ _)⟩
      | unresolved => exact ⟨.refl hg, .some ⟨trivial, trivial, rfl⟩⟩
  | null => exact ⟨.refl hg, .none⟩

theorem step_argument (hg : st.graph.WellFormed) (arg : Option PointerSource) :
    Step st (argument c st arg).1 (gather arg.toList sourceNodes) [] ∧
      ReadsAs (argument c st arg).1 (argument c st arg).2
        (arg.bind (originOf c.hierarchy c.returnFlow)) := by
  cases arg with
  | some source =>
      obtain ⟨hstep, hreads⟩ := step_value c hg source
      refine ⟨hstep.congr ?_ rfl, hreads⟩
      simp [gather]
  | none => exact ⟨(Step.refl hg).congr (gather_nil _).symm rfl, .none⟩

/-- The arguments of a call, after some of which the values are known already. -/
theorem step_foldl_argument (hg : st.graph.WellFormed) {values : List (Option Value)}
    {os : List (Option (Origin FunctionKey))} (hread : List.Forall₂ (ReadsAs st) values os)
    (args : List (Option PointerSource)) {result : State × List (Option Value)}
    (hresult : args.foldl (fun (st, values) arg =>
      let (st, value) := argument c st arg
      (st, values ++ [value])) (st, values) = result) :
    Step st result.1 (argNodes args) [] ∧
      List.Forall₂ (ReadsAs result.1) result.2 (os ++ originsOf c.hierarchy c.returnFlow args) := by
  induction args generalizing st values os with
  | nil =>
      subst hresult
      refine ⟨(Step.refl hg).congr (gather_nil _).symm rfl, ?_⟩
      rw [originsOf, List.map_nil, List.append_nil]
      exact hread
  | cons arg args ih =>
      obtain ⟨hhead, hvalue⟩ := step_argument c hg arg
      -- what was read before still reads the same after this argument
      have hread' : List.Forall₂ (ReadsAs (argument c st arg).1) (values ++ [(argument c st arg).2])
          (os ++ [arg.bind (originOf c.hierarchy c.returnFlow)]) :=
        List.rel_append (hread.imp fun _ _ h => h.step hhead) (.cons hvalue .nil)
      obtain ⟨htail, hreads⟩ := ih hhead.wellFormed hread' hresult
      refine ⟨(hhead.trans htail).congr
        (gather_cons arg args fun arg => gather arg.toList sourceNodes).symm rfl, ?_⟩
      rwa [List.append_assoc] at hreads

theorem step_arguments (hg : st.graph.WellFormed) (args : List (Option PointerSource)) :
    Step st (arguments c st args).1 (argNodes args) [] ∧
      List.Forall₂ (ReadsAs (arguments c st args).1) (arguments c st args).2
        (originsOf c.hierarchy c.returnFlow args) :=
  step_foldl_argument c hg .nil args rfl

theorem step_ask_default (hg : st.graph.WellFormed) {key : FunctionKey} {id : NodeId}
    (hid : st.graph.nodeId? key = some id) (index : Nat) {v : Value} {o : Origin FunctionKey}
    (hv : Reads st v o) :
    Step st { st with program := st.program.addDefault id index v } ∅ [.default key index o] := by
  have hstep := Step.of_built (st.program.addDefault id index v)
    [.default id index (st.program.origin v)] hg (List.prefix_refl _)
    (fun old hold => hold.default id index v hv.within)
    (by simpa [Constraint.Over] using ⟨lt_size_of_nodeId? hid, hv.known⟩)
  rwa [List.map_singleton, Constraint.map, keyOf_of_nodeId? hid, hv.map_eq] at hstep

theorem step_ask_call (hg : st.graph.WellFormed) {key : FunctionKey} {id : NodeId}
    (hid : st.graph.nodeId? key = some id) {values : List (Option Value)}
    {os : List (Option (Origin FunctionKey))} (hargs : List.Forall₂ (ReadsAs st) values os)
    (explicit : Nat) :
    Step st { st with program := st.program.addStaticCall ⟨id, values, explicit⟩ } ∅
      [.call key os explicit] := by
  have hstep := Step.of_built (st.program.addStaticCall ⟨id, values, explicit⟩)
    [.call id (st.program.origins values) explicit] hg (List.prefix_refl _)
    (fun old hold => hold.staticCall ⟨id, values, explicit⟩ (argsWithin_of_reads hargs))
    (by simpa [Constraint.Over] using ⟨lt_size_of_nodeId? hid, argsOver_of_reads hargs⟩)
  rwa [List.map_singleton, Constraint.map, keyOf_of_nodeId? hid, mapArgs_of_reads hargs] at hstep

theorem step_ask_callThrough (hg : st.graph.WellFormed) {slot : Slot} {through : SlotId}
    (hslot : Reads st (.slot through) (.slot slot)) {values : List (Option Value)}
    {os : List (Option (Origin FunctionKey))} (hargs : List.Forall₂ (ReadsAs st) values os)
    (explicit : Nat) (expand : Bool) :
    Step st { st with program := st.program.addIndirectCall ⟨through, values, explicit, expand⟩ } ∅
      [.callThrough slot os explicit expand] := by
  have hkey : st.program.keyAt through = slot := Origin.slot.inj hslot.map_eq
  have hstep := Step.of_built (st.program.addIndirectCall ⟨through, values, explicit, expand⟩)
    [.callThrough (st.program.keyAt through) (st.program.origins values) explicit expand] hg
    (List.prefix_refl _)
    (fun old hold => hold.indirectCall ⟨through, values, explicit, expand⟩ hslot.within
      (argsWithin_of_reads hargs))
    (by simpa [Constraint.Over] using argsOver_of_reads hargs)
  rwa [List.map_singleton, Constraint.map, hkey, mapArgs_of_reads hargs] at hstep

theorem step_ask_flow (hg : st.graph.WellFormed) {slot : Slot} {target : SlotId}
    (hslot : Reads st (.slot target) (.slot slot)) {v : Value} {o : Origin FunctionKey}
    (hv : Reads st v o) :
    Step st { st with program := st.program.assign v target } ∅ [.flow o slot] := by
  have hkey : st.program.keyAt target = slot := Origin.slot.inj hslot.map_eq
  have hslots : (st.program.assign v target).keys = st.program.keys := by
    cases v with
    | slot source =>
        simp only [Program.assign, Program.addCopy]
        split <;> rfl
    | function id => rfl
    | blocked => rfl
  have hstep := Step.of_built (st.program.assign v target)
    [.flow (st.program.origin v) (st.program.keyAt target)] hg
    (hslots ▸ List.prefix_refl _) (fun old hold => hold.assign v target hv.within hslot.within)
    (by simpa [Constraint.Over] using hv.known)
  rwa [List.map_singleton, Constraint.map, hkey, hv.map_eq] at hstep

theorem step_addDefault {key : FunctionKey} {id : NodeId} (hg : st.graph.WellFormed)
    (hid : st.graph.nodeId? key = some id) (d : DefaultArg) :
    Step st (addDefault c id st d) (sourceNodes d.value)
      (ofDefault c.hierarchy c.returnFlow key d) := by
  obtain ⟨hstep, hread⟩ := step_value c hg d.value
  rw [addDefault, ofDefault]
  rcases hvalue : value c st d.value with ⟨st', v⟩
  rw [hvalue] at hstep hread
  generalize originOf c.hierarchy c.returnFlow d.value = o at hread ⊢
  cases hread with
  | some hread =>
      have hask := step_ask_default hstep.wellFormed (nodeId?_of_isPrefix hstep.keys hid) d.index
        hread
      exact (hstep.trans hask).congr (Set.union_empty _) rfl
  | none => exact hstep

theorem step_addDefaults (hg : st.graph.WellFormed) (r : FunctionRecord) :
    Step st (addDefaults c st r) (recordNodes r) (ofRecord c.hierarchy c.returnFlow r) := by
  rw [addDefaults]
  split
  · next hempty =>
    rw [List.isEmpty_iff] at hempty
    refine (Step.refl hg).congr ?_ ?_
    · rw [recordNodes, hempty, gather_nil]
      simp
    · rw [ofRecord, hempty, List.flatMap_nil]
  · next hempty =>
    rw [List.isEmpty_iff] at hempty
    have href := step_reference c hg r.key "default argument owner"
    obtain ⟨hdefaults, -⟩ := Step.foldl_of (fun st => st.graph.nodeId? r.key = some _)
      (addDefault c (reference c st r.key "default argument owner").2)
      (fun st d hg hid =>
        have hstep := step_addDefault c hg hid d
        ⟨hstep, nodeId?_of_isPrefix hstep.keys hid⟩)
      r.defaultArgs href.wellFormed (nodeId?_reference c hg r.key _)
    refine (href.trans hdefaults).congr ?_ rfl
    rw [recordNodes]
    congr 1
    ext x
    simp [hempty]

theorem step_addAssignment (hg : st.graph.WellFormed) (a : Assignment) :
    Step st (addAssignment c st a) (sourceNodes a.source)
      (ofAssignment c.hierarchy c.returnFlow a) := by
  have hplace := step_intern hg (c.hierarchy.canonical a.destination)
  have htarget := reads_intern st (c.hierarchy.canonical a.destination)
  obtain ⟨hstep, hread⟩ := step_value c hplace.wellFormed a.source
  have hboth := (hplace.trans hstep).congr (Set.empty_union _) rfl
  rw [ofAssignment]
  simp only [addAssignment, place]
  rcases hvalue : value c (intern st (c.hierarchy.canonical a.destination)).1 a.source with ⟨st', v⟩
  rw [hvalue] at hstep hread hboth
  generalize originOf c.hierarchy c.returnFlow a.source = o at hread ⊢
  cases hread with
  | some hread =>
      have hask := step_ask_flow hstep.wellFormed (htarget.step hstep) hread
      exact (hboth.trans hask).congr (Set.union_empty _) rfl
  | none => exact hboth

/-- A call of a known function, with arguments that are read already. -/
theorem step_addStaticCall (hg : st.graph.WellFormed) (what : String)
    {values : List (Option Value)} {os : List (Option (Origin FunctionKey))}
    (hargs : List.Forall₂ (ReadsAs st) values os) (explicit : Nat) (callee : FunctionKey) :
    Step st (addStaticCall c what values explicit st callee) {.node callee}
      [.call callee os explicit] := by
  have href := step_reference c hg callee what
  have hask := step_ask_call href.wellFormed (nodeId?_reference c hg callee what)
    (hargs.imp fun _ _ h => h.step href) explicit
  exact (href.trans hask).congr (Set.union_empty _) rfl

theorem step_addIndirectCall (hg : st.graph.WellFormed) (site : CallSite) (slot : Slot)
    (expand : Bool) :
    Step st (addIndirectCall c st site slot expand) (argNodes site.args)
      [.callThrough (c.hierarchy.canonical slot) (originsOf c.hierarchy c.returnFlow site.args)
        site.explicitArgs expand] := by
  have hplace := step_intern hg (c.hierarchy.canonical slot)
  obtain ⟨hargs, hread⟩ := step_arguments c hplace.wellFormed site.args
  have hthrough := (reads_intern st (c.hierarchy.canonical slot)).step hargs
  have hask := step_ask_callThrough hargs.wellFormed hthrough hread site.explicitArgs expand
  exact ((hplace.trans hargs).trans hask).congr (by simp) rfl

theorem step_addSite (hg : st.graph.WellFormed) (site : CallSite) :
    Step st (addSite c st site) (siteNodes c.hierarchy site)
      (ofSite c.hierarchy c.returnFlow site) := by
  unfold addSite siteNodes ofSite
  cases site.target with
  | direct callee =>
      have href := step_reference c hg callee ("call from " ++ site.caller)
      obtain ⟨hargs, hread⟩ := step_arguments c href.wellFormed site.args
      have hid := nodeId?_of_isPrefix hargs.keys (nodeId?_reference c hg callee _)
      have hask := step_ask_call hargs.wellFormed hid hread site.explicitArgs
      exact ((href.trans hargs).trans hask).congr (Set.union_empty _) rfl
  | virtual receiver method =>
      dsimp only
      cases c.hierarchy.dispatch receiver method with
      | error _ => exact .refl hg
      | ok d =>
          obtain ⟨hargs, hread⟩ := step_arguments c hg site.args
          obtain ⟨hcalls, -⟩ := Step.foldl_of
            (fun st => List.Forall₂ (ReadsAs st) (arguments c _ site.args).2 _) _
            (fun st callee hg hread =>
              have hstep := step_addStaticCall c hg ("virtual call from " ++ site.caller) hread
                site.explicitArgs callee
              ⟨hstep, hread.imp fun _ _ h => h.step hstep⟩)
            d.targets.toList hargs.wellFormed hread
          exact (hargs.trans hcalls).congr rfl List.map_eq_flatMap.symm
  | pointer slot => exact step_addIndirectCall c hg site slot false
  | memberPointer slot _ => exact step_addIndirectCall c hg site slot true
  | implicit => exact .refl hg

/-- The overriders of a function that are in the graph with it. -/
def expansionsIn (h : Hierarchy) (g : Graph) (f : FunctionKey) : List (Constraint FunctionKey) :=
  match g.nodeId? f with
  | some _ => ((h.overriders f).toList.filterMap g.nodeId?).map fun id => .overrider f (g.keyOf id)
  | none => []

theorem mem_expansionsIn {h : Hierarchy} {g : Graph} {f : FunctionKey}
    {k : Constraint FunctionKey} : k ∈ expansionsIn h g f ↔
      ∃ other ∈ h.overriders f, .node f ∈ g.features ∧ .node other ∈ g.features ∧
        k = .overrider f other := by
  simp only [node_mem_features]
  rw [expansionsIn]
  cases hf : g.nodeId? f with
  | none => simp
  | some id =>
      simp only [List.mem_map, List.mem_filterMap]
      constructor
      · rintro ⟨id', ⟨other, hother, hid'⟩, rfl⟩
        exact ⟨other, hother, ⟨id, rfl⟩, ⟨id', hid'⟩, by rw [keyOf_of_nodeId? hid']⟩
      · rintro ⟨other, hother, -, ⟨id', hid'⟩, rfl⟩
        exact ⟨id', ⟨other, hother, hid'⟩, by rw [keyOf_of_nodeId? hid']⟩

theorem step_addExpansion (hg : st.graph.WellFormed) (f : FunctionKey) :
    Step st (addExpansion c st f) ∅ (expansionsIn c.hierarchy st.graph f) ∧
      (addExpansion c st f).graph = st.graph := by
  rw [addExpansion, expansionsIn]
  cases hid : st.graph.nodeId? f with
  | none => exact ⟨.refl hg, rfl⟩
  | some id =>
      dsimp only
      generalize hothers : (c.hierarchy.overriders f).toList.filterMap st.graph.nodeId? = others
      have hslots : (st.program.addExpansion id others).keys = st.program.keys := by
        rw [Program.addExpansion]
        split <;> rfl
      have hstep := Step.of_built (st.program.addExpansion id others) (others.map (.overrider id))
        hg (hslots ▸ List.prefix_refl _) (fun old hold => hold.expansion id others) ?_
      · refine ⟨hstep.congr rfl ?_, rfl⟩
        rw [List.map_map]
        refine List.map_congr_left fun other _ => ?_
        rw [Function.comp_apply, Constraint.map, keyOf_of_nodeId? hid]
      · intro k hk
        obtain ⟨other, hother, rfl⟩ := List.mem_map.mp hk
        rw [← hothers] at hother
        obtain ⟨key, -, hkey⟩ := List.mem_filterMap.mp hother
        exact ⟨lt_size_of_nodeId? hid, lt_size_of_nodeId? hkey⟩

theorem step_expansions (hg : st.graph.WellFormed) (fs : List FunctionKey) :
    Step st (fs.foldl (addExpansion c) st) ∅ (fs.flatMap (expansionsIn c.hierarchy st.graph)) ∧
      (fs.foldl (addExpansion c) st).graph = st.graph := by
  have hone : ∀ (st' : State) (f : FunctionKey), st'.graph.WellFormed → st'.graph = st.graph →
      Step st' (addExpansion c st' f) ∅ (expansionsIn c.hierarchy st.graph f) ∧
        (addExpansion c st' f).graph = st.graph := by
    intro st' f hg hsame
    obtain ⟨hstep, hkept⟩ := step_addExpansion c hg f
    exact ⟨hsame ▸ hstep, hkept.trans hsame⟩
  obtain ⟨hstep, hgraph⟩ := Step.foldl_of (fun st' => st'.graph = st.graph) (addExpansion c) hone fs
    hg rfl
  exact ⟨hstep.congr (gather_empty fs) rfl, hgraph⟩

/-- The facts of a unit, with all that they refer to, as constraints. -/
theorem holds_constraints (u : TranslationUnit) {g : Graph} (hg : g.WellFormed) :
    Adds g (constraints c u g).graph (referred c.hierarchy u) ∧ ∃ ks, Holds (constraints c u g) ks ∧
      {k | k ∈ ks} = asked c.hierarchy c.returnFlow u (constraints c u g).graph.features := by
  have hstart : ({ graph := g } : State).graph.WellFormed := hg
  have hdefaults := Step.foldl (addDefaults c) (fun st r hg => step_addDefaults c hg r) u.functions
    hstart
  have hassigned := Step.foldl (addAssignment c) (fun st a hg => step_addAssignment c hg a)
    u.assignments hdefaults.wellFormed
  have hcalled := Step.foldl (addSite c) (fun st site hg => step_addSite c hg site) u.callSites
    hassigned.wellFormed
  obtain ⟨hexpanded, hgraph⟩ := step_expansions c hcalled.wellFormed c.hierarchy.virtuals.toList
  have hall := ((hdefaults.trans hassigned).trans hcalled).trans hexpanded
  refine ⟨hall.toAdds.congr (by rw [referred, Set.union_empty]), _,
    hall.asks [] ⟨[], .empty, by simp, rfl⟩, ?_⟩
  ext k
  simp only [List.nil_append, List.mem_append, asked, or_assoc, Set.mem_ofPred_eq]
  refine or_congr_right (or_congr_right (or_congr_right ?_))
  rw [List.mem_flatMap, constraints, hgraph]
  exact exists_congr fun f => and_congr_right fun _ => mem_expansionsIn

end Steps

/-! ## Edges from the solution -/

section Edges

/-- The functions that a call may run if its slot holds a function. -/
def candidates (h : Hierarchy) (kind : EdgeKind) (receiver : Option String) (f : FunctionKey) :
    List FunctionKey :=
  match kind with
  | .memberPointer => h.memberPointerTargets f receiver
  | _ => [f]

/-- What an indirect call shows if the slots hold so much. -/
def ofIndirect (h : Hierarchy) (F : Family FunctionKey) (site : CallSite) : Set Feature :=
  match indirect? site with
  | some (slot, kind, receiver) =>
    {x | ∃ f target, .function f ∈ F (h.canonical slot) ∧ target ∈ candidates h kind receiver f ∧
      x ∈ Scope.ofCall site.caller target kind .may}
  | none => ∅

/-- What an indirect call shows grows with what the slots hold. -/
theorem ofIndirect_mono {h : Hierarchy} {F G : Family FunctionKey} (hle : F ≤ G)
    (site : CallSite) : ofIndirect h F site ⊆ ofIndirect h G site := by
  intro x hx
  rw [ofIndirect] at hx ⊢
  cases hsite : indirect? site with
  | none =>
      rw [hsite] at hx
      exact hx
  | some data =>
      rw [hsite] at hx
      obtain ⟨f, target, hf, hx⟩ := hx
      exact ⟨f, target, hle _ hf, hx⟩

/-- What the slots of a program hold, by keys. -/
def heldKeys (g : Graph) (p : Program) : Family FunctionKey :=
  fun slot => Item.map g.keyOf '' p.contents slot

/-- Whatever the slots of a program hold is in a graph. -/
def HoldsNodes (g : Graph) (p : Program) : Prop :=
  ∀ slot x, x ∈ p.contents slot → x.Over (· < g.size)

variable (c : Setting) {g g' : Graph} {p : Program}

theorem function_mem_heldKeys {slot : Slot} {id : SlotId} (hid : p.slotId? slot = some id)
    {f : FunctionKey} :
    .function f ∈ heldKeys g p slot ↔ ∃ n ∈ p.heldBy id, g.keyOf n = f := by
  constructor
  · rintro ⟨x, ⟨id', hid', hx⟩, heq⟩
    obtain rfl := Option.some.inj (hid.symm.trans hid')
    cases x with
    | function n => exact ⟨n, hx, Item.function.inj heq⟩
    | blocked => exact absurd heq (by simp [Item.map])
  · rintro ⟨n, hn, rfl⟩
    exact ⟨.function n, ⟨id, hid, hn⟩, rfl⟩

theorem mem_targets (hnodes : HoldsNodes g p) (hpre : g.keys <+: g'.keys) {slot : Slot}
    {id : SlotId} (hid : p.slotId? slot = some id) {kind : EdgeKind} {receiver : Option String}
    {t : FunctionKey} : t ∈ targets c g' p id kind receiver ↔
      ∃ f, .function f ∈ heldKeys g p slot ∧ t ∈ candidates c.hierarchy kind receiver f := by
  have hkey : ∀ n ∈ p.heldBy id, g'.keyOf n = g.keyOf n := fun n hn =>
    keyOf_of_isPrefix hpre (hnodes slot (.function n) ⟨id, hid, hn⟩)
  have hheld : (p.heldBy id).toList.map g'.keyOf = (p.heldBy id).toList.map g.keyOf :=
    List.map_congr_left hkey
  simp only [function_mem_heldKeys hid]
  unfold targets candidates
  rw [hheld]
  cases kind with
  | memberPointer => simp [SortedSet.mem_ofList, SortedSet.mem_def (s := p.heldBy id)]
  | _ => simp [SortedSet.mem_ofList, SortedSet.mem_def (s := p.heldBy id), eq_comm]

theorem ofCalls_targets (hnodes : HoldsNodes g p) (hpre : g.keys <+: g'.keys) {slot : Slot}
    {id : SlotId} (hid : p.slotId? slot = some id) (kind : EdgeKind) (receiver : Option String)
    (caller : FunctionKey) :
    Scope.ofCalls caller (targets c g' p id kind receiver).toList kind .may =
      {x | ∃ f target, .function f ∈ heldKeys g p slot ∧
        target ∈ candidates c.hierarchy kind receiver f ∧
        x ∈ Scope.ofCall caller target kind .may} := by
  ext x
  simp only [Scope.ofCalls, gather, Set.mem_ofPred_eq, ← SortedSet.mem_def,
    mem_targets c hnodes hpre hid]
  constructor
  · rintro ⟨t, ⟨f, hf, ht⟩, hx⟩
    exact ⟨f, t, hf, ht, hx⟩
  · rintro ⟨f, t, hf, ht, hx⟩
    exact ⟨t, ⟨f, hf, ht⟩, hx⟩

theorem adds_resolveSite (hnodes : HoldsNodes g p) {state : Graph × FlowReport}
    (hg : state.1.WellFormed) (hpre : g.keys <+: state.1.keys) (site : CallSite) :
    Adds state.1 (resolveSite c p state site).1
      (ofIndirect c.hierarchy (heldKeys g p) site) := by
  unfold resolveSite ofIndirect
  cases indirect? site with
  | none => exact .refl hg
  | some data =>
      obtain ⟨slot, kind, receiver⟩ := data
      dsimp only
      cases hid : p.slotId? (c.hierarchy.canonical slot) with
      | none =>
          refine (Adds.refl hg).congr ?_
          simp [heldKeys, Program.contents, hid]
      | some id =>
          have hcalls := c.scope.adds_callAll hg site.caller
            (targets c state.1 p id kind receiver).toList kind .may
          rw [ofCalls_targets c hnodes hpre hid] at hcalls
          dsimp only
          split
          · refine Adds.congr (hcalls.trans (adds_addDiagnostic hcalls.wellFormed _)) ?_
            rw [Set.union_empty]
          · exact hcalls

theorem adds_foldl_resolveSite (hnodes : HoldsNodes g p) (state : Graph × FlowReport)
    (hg : state.1.WellFormed) (hpre : g.keys <+: state.1.keys) (sites : List CallSite) :
    Adds state.1 (sites.foldl (resolveSite c p) state).1
      (gather sites (ofIndirect c.hierarchy (heldKeys g p))) :=
  Adds.foldl Prod.fst (fun g' => g.keys <+: g'.keys) (resolveSite c p)
    (fun _ site _ hst hpre =>
      have hadd := adds_resolveSite c hnodes hst hpre site
      ⟨hadd, hpre.trans hadd.keys⟩) hg hpre

end Edges

/-! ## The pass -/

theorem isLeast_heldKeys {st : State} {ks : List (Constraint FunctionKey)} (hst : Holds st ks)
    (hg : st.graph.WellFormed) {limit : Option Nat} {cancelled : Bool} {p : Program}
    {stats : FixpointStats}
    (hok : st.program.solve (st.graph.nodes.map (·.key)) limit cancelled = (p, .ok stats)) :
    HoldsNodes st.graph p ∧ IsLeast {F | Solves {k | k ∈ ks} id F} (heldKeys st.graph p) := by
  obtain ⟨cs, hbuilt, hover, rfl⟩ := hst
  have hleast := hbuilt.represents.isLeast st.graph (by rw [hok])
  rw [hok] at hleast
  -- slots that hold nodes only are a solution, so the least one holds nodes only
  refine ⟨fun slot x hx => hleast.2 (solves_over hover) slot hx, ?_⟩
  have himage : {k | k ∈ cs.map (.map st.graph.keyOf)} =
      Constraint.map st.graph.keyOf '' {k | k ∈ cs} := by
    ext k
    simp
  rw [himage]
  -- keys are distinct, so a number can be told from its key
  refine isLeast_map (τ := fun key => (st.graph.nodeId? key).getD 0) (E := (· ∈ st.graph.keys))
    (fun n hn => ?_) (fun key hkey => ?_) (fun _ _ => rfl) hover hleast
  · exact ⟨List.mem_of_getElem? (getElem?_keyOf hn), by rw [nodeId?_keyOf hg.nodup hn]; rfl⟩
  · obtain ⟨n, hn⟩ := node_mem_features.mp hkey
    rw [hn]
    exact ⟨lt_size_of_nodeId? hn, keyOf_of_nodeId? hn⟩

/-- The pass adds the functions that the facts refer to, and the calls that the least solution of
the constraints gives. -/
theorem adds_run (s : Scope) (options : Options) {cancelled : Bool} {h : Hierarchy}
    {u : TranslationUnit} {g g' : Graph} {report : FlowReport} (hg : g.WellFormed)
    (hrun : run s options cancelled h u g = (g', .ok report)) :
    ∃ F, IsLeast {F | Solves (asked h options.returnFlow u (g.features ∪ referred h u)) id F} F ∧
      Adds g g' (referred h u ∪ gather u.callSites (ofIndirect h F)) := by
  simp only [run] at hrun
  generalize hc : (⟨s, h, options.returnFlow⟩ : Setting) = c at hrun
  obtain ⟨hfacts, ks, hks, hasked⟩ := holds_constraints c u hg
  split at hrun
  · exact absurd hrun (by simp)
  · next p fixpoint hok =>
    obtain ⟨hnodes, hleast⟩ := isLeast_heldKeys hks hfacts.wellFormed hok
    have hcalls := adds_foldl_resolveSite c hnodes (_, { fixpoint := fixpoint })
      hfacts.wellFormed (List.prefix_refl _) u.callSites
    rw [hasked, hfacts.features] at hleast
    subst hc
    obtain ⟨rfl, -⟩ := Prod.mk.inj hrun
    exact ⟨_, hleast, hfacts.trans hcalls⟩

end PointerCalls

end CallGraphs
