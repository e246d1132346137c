import CallGraphs.Proofs.Analysis.Repetition
import CallGraphs.Proofs.Merge.Arbitration
import CallGraphs.Proofs.Merge.Reordering
import Mathlib

/-!
# Units that are repeated

A copy of a unit has the same facts, another name and a later index.  Arbitration
treats it as it treats the unit: it never defines a function first, and where the
definition of the unit is excluded, so is that of the copy
(`excludes_copy`).  What the union takes over from the copy is known from the
unit, so the copy changes nothing but diagnostics (`resembles_absorb_copy`), and
its facts repeat those of the unit.  So a merge with the copy comes to the same
functions and the same edges as a merge without it (`repeatedUnit_irrelevant`).
-/

namespace CallGraphs

open CallGraphs.Graph

/-! ## What is known of functions already -/

theorem Signature.eq_of_isEmpty {s : Signature} (h : s.isEmpty = true) : s = {} := by
  obtain ⟨params, ret⟩ := s
  simp only [isEmpty, Bool.and_eq_true, List.isEmpty_iff, String.isEmpty_iff] at h
  obtain ⟨rfl, rfl⟩ := h
  rfl

namespace Function

/-- Another mention of a function says nothing new. -/
structure Covers (f other : Function) : Prop where
  hasBody : other.hasBody = true → f.hasBody = true
  isVirtual : other.isVirtual = true → f.isVirtual = true
  isLambda : other.isLambda = true → f.isLambda = true
  stub : f.stub = true → other.stub = true
  displayName : f.displayName = none → other.displayName = none
  signature : f.signature.isEmpty = true → other.signature.isEmpty = true
  overrides : ∀ key ∈ other.overrides, key ∈ f.overrides
  overriddenBy : ∀ key ∈ other.overriddenBy, key ∈ f.overriddenBy

variable {f other : Function}

theorem Covers.refl (f : Function) : f.Covers f where
  hasBody h := h
  isVirtual h := h
  isLambda h := h
  stub h := h
  displayName h := h
  signature h := h
  overrides _ h := h
  overriddenBy _ h := h

/-- The marks of units do not count. -/
theorem Covers.of_shown {named : Bool} {other' : Function} (h : f.Covers other)
    (hsame : other.shown named = other'.shown named) : f.Covers other' := by
  have hshown : f.Covers (other.shown named) := { h with }
  rw [hsame] at hshown
  exact { hshown with }

theorem absorb_of_covers (h : f.Covers other) : f.absorb other = f := by
  obtain ⟨key, displayName, hasBody, isVirtual, isLambda, stub, signature, overrides,
    overriddenBy, origin⟩ := f
  have hflag : ∀ a b : Bool, (b = true → a = true) → (a || b) = a := by decide
  have hstub : (stub && other.stub) = stub := by
    cases stub with
    | false => rfl
    | true => exact h.stub rfl
  have hname : (displayName <|> other.displayName) = displayName := by
    cases displayName with
    | some name => rfl
    | none => exact h.displayName rfl
  have hsignature : (if signature.isEmpty then other.signature else signature) = signature := by
    split
    · next hempty =>
      rw [Signature.eq_of_isEmpty hempty, Signature.eq_of_isEmpty (h.signature hempty)]
    · rfl
  have horigin : (if other.hasBody && !hasBody then other.origin <|> origin else origin) =
      origin := by
    refine if_neg fun hnew => ?_
    simp only [Bool.and_eq_true, Bool.not_eq_true'] at hnew
    exact absurd (h.hasBody hnew.1) (by simp [hnew.2])
  have hoverrides : overrides.union other.overrides = overrides :=
    SortedSet.eq_of_forall_mem_iff fun key => by
      rw [SortedSet.mem_union, or_iff_left_of_imp (h.overrides key)]
  have hoverriddenBy : overriddenBy.union other.overriddenBy = overriddenBy :=
    SortedSet.eq_of_forall_mem_iff fun key => by
      rw [SortedSet.mem_union, or_iff_left_of_imp (h.overriddenBy key)]
  simp only [absorb, hflag _ _ h.hasBody, hflag _ _ h.isVirtual, hflag _ _ h.isLambda, hstub, hname,
    hsignature, horigin, hoverrides, hoverriddenBy]

theorem covers_absorb_self (f other : Function) : (f.absorb other).Covers other where
  hasBody h := by simp [absorb, h]
  isVirtual h := by simp [absorb, h]
  isLambda h := by simp [absorb, h]
  stub h := (Bool.and_eq_true_iff.mp h).2
  displayName h := by
    cases hname : f.displayName with
    | some name => simp [absorb, hname] at h
    | none => simpa [absorb, hname] using h
  signature h := by
    by_cases hempty : f.signature.isEmpty = true
    · simpa [absorb, hempty] using h
    · simp [absorb, hempty] at h
  overrides _ hkey := SortedSet.mem_union.mpr (Or.inr hkey)
  overriddenBy _ hkey := SortedSet.mem_union.mpr (Or.inr hkey)

theorem Covers.absorb (h : f.Covers other) (more : Function) : (f.absorb more).Covers other where
  hasBody hother := by simp [Function.absorb, h.hasBody hother]
  isVirtual hother := by simp [Function.absorb, h.isVirtual hother]
  isLambda hother := by simp [Function.absorb, h.isLambda hother]
  stub hstub := h.stub (Bool.and_eq_true_iff.mp hstub).1
  displayName hnone := by
    refine h.displayName ?_
    cases hname : f.displayName with
    | some name => simp [Function.absorb, hname] at hnone
    | none => rfl
  signature hempty := by
    refine h.signature ?_
    by_contra hfull
    simp [Function.absorb, hfull] at hempty
  overrides key hkey := SortedSet.mem_union.mpr (Or.inl (h.overrides key hkey))
  overriddenBy key hkey := SortedSet.mem_union.mpr (Or.inl (h.overriddenBy key hkey))

end Function

namespace Graph

/-- What a mention says of a function, the graph knows. -/
def Knows (g : Graph) (f : Function) : Prop := ∃ known ∈ g.nodes, known.key = f.key ∧ known.Covers f

variable {g : Graph} {f : Function}

theorem knows_addFunction_self (g : Graph) (f : Function) : (g.addFunction f).1.Knows f := by
  rw [addFunction]
  cases hid : g.nodeId? f.key with
  | none => exact ⟨f, List.mem_append_right _ List.mem_cons_self, rfl, .refl f⟩
  | some id =>
      obtain ⟨known, hknown, hkey⟩ := exists_getElem?_of_nodeId? hid
      refine ⟨known.absorb f, List.mem_of_getElem? (i := id) ?_, hkey,
        Function.covers_absorb_self known f⟩
      simp [modifyNode, hknown]

theorem Knows.addFunction (h : g.Knows f) (other : Function) : (g.addFunction other).1.Knows f := by
  obtain ⟨known, hknown, hkey, hcovers⟩ := h
  rw [Graph.addFunction]
  cases g.nodeId? other.key with
  | none => exact ⟨known, List.mem_append_left _ hknown, hkey, hcovers⟩
  | some id =>
      obtain ⟨i, hi⟩ := List.mem_iff_getElem?.mp hknown
      by_cases hid : id = i
      · refine ⟨known.absorb other, List.mem_of_getElem? (i := i) ?_, hkey, hcovers.absorb other⟩
        simp [modifyNode, hi, hid]
      · refine ⟨known, List.mem_of_getElem? (i := i) ?_, hkey, hcovers⟩
        simp [modifyNode, hi, hid]

theorem addFunction_of_knows (hg : g.WellFormed) (h : g.Knows f) : (g.addFunction f).1 = g := by
  obtain ⟨known, hknown, hkey, hcovers⟩ := h
  obtain ⟨id, hid⟩ : ∃ id, g.nodeId? f.key = some id :=
    node_mem_features.mp (hkey ▸ List.mem_map_of_mem hknown)
  obtain ⟨found, hfound, hfoundKey⟩ := exists_getElem?_of_nodeId? hid
  obtain rfl : found = known := List.inj_on_of_nodup_map hg.nodup
    (List.mem_of_getElem? hfound) hknown (hfoundKey.trans hkey.symm)
  rw [addFunction, hid]
  refine modifyNode_of_forall fun f' hf' => ?_
  obtain rfl := Option.some.inj (hfound.symm.trans hf')
  exact Function.absorb_of_covers hcovers

theorem Knows.ensureNode (h : g.Knows f) (key : FunctionKey) : (g.ensureNode key).1.Knows f := by
  rw [Graph.ensureNode]
  cases g.nodeId? key with
  | some id => exact h
  | none => exact h.addFunction _

theorem Knows.addCall (h : g.Knows f) (c : Call) : (g.addCall c).Knows f := by
  simp only [Graph.addCall, insertEdge]
  split
  · exact (h.ensureNode c.caller).ensureNode c.callee
  · exact (h.ensureNode c.caller).ensureNode c.callee

theorem Knows.addDiagnostic (h : g.Knows f) (d : Diagnostic) : (g.addDiagnostic d).Knows f := by
  rw [Graph.addDiagnostic]
  split
  · exact h
  · exact h

theorem addCall_of_mem (hg : g.WellFormed) {c : Call}
    (h : .call c.caller c.callee c.kind c.confidence ∈ g.features) : g.addCall c = g := by
  obtain ⟨source, target, hsource, htarget, he⟩ := exists_edge_of_call hg h
  simp only [addCall, ensureNode, hsource, htarget]
  exact insertEdge_of_mem he _

end Graph

namespace Merge

open Arbitration

variable {digest : String → String}

/-! ## Graphs -/

theorem shown_keptFunction {named : Bool} (a : Arbitration) (index : Nat) {f f' : Function}
    (hsame : f.shown named = f'.shown named) :
    (keptFunction a index f).shown named = (keptFunction a index f').shown named := by
  have hkey := Function.key_eq_of_shown hsame
  by_cases hlost : a.excludes index f.key = true
  · rw [keptFunction, keptFunction, if_pos hlost, if_pos (hkey ▸ hlost)]
    exact congrArg (fun f : Function => { f with hasBody := false }) hsame
  · rw [keptFunction, keptFunction, if_neg hlost, if_neg (hkey ▸ hlost)]
    exact hsame

theorem keptFunction_congr {a a' : Arbitration} {index index' : Nat}
    (ha : a.excludes index = a'.excludes index') :
    keptFunction a index = keptFunction a' index' := by
  funext f
  rw [keptFunction, keptFunction, ha]

section Absorption

variable {named : Bool} {a a' : Arbitration} {g g' : Graph} {p q : UnitGraph}

theorem knows_foldl_joinFunction {f : Function} (h : g.Knows f) (index : Nat)
    (fs : List Function) : (fs.foldl (joinFunction a index) g).Knows f := by
  induction fs generalizing g with
  | nil => exact h
  | cons f' fs ih => exact ih (h.addFunction (keptFunction a index f'))

theorem knows_takeRest {f : Function} (h : g.Knows f) (p : UnitGraph) :
    (p.graph.diagnostics.foldl takeDiagnostic
      (p.graph.calls.foldl (joinCall a p.index) g)).Knows f := by
  refine List.foldlRecOn (motive := fun g : Graph => g.Knows f) _ _
    (List.foldlRecOn (motive := fun g : Graph => g.Knows f) _ _ h ?_) ?_
  · intro g hg c _
    rw [joinCall]
    split
    · exact hg.addCall c
    · exact hg
  · intro g hg d _
    rw [takeDiagnostic]
    split
    · exact hg
    · exact hg.addDiagnostic d

/-- A graph has all that is taken over from a unit. -/
structure Has (a : Arbitration) (g : Graph) (p : UnitGraph) : Prop where
  functions : ∀ f ∈ p.graph.nodes, g.Knows (keptFunction a p.index f)
  features : taken a p ⊆ g.features

theorem has_absorb_self (a : Arbitration) (hg : g.WellFormed) (hp : p.graph.WellFormed) :
    Has a (absorb a g p) p where
  functions f hf := by
    rw [absorb_eq_joinUnit a hp]
    refine knows_takeRest ?_ p
    obtain ⟨before, after, hsplit⟩ := List.append_of_mem hf
    rw [hsplit, List.foldl_append, List.foldl_cons]
    exact knows_foldl_joinFunction (knows_addFunction_self _ _) p.index after
  features := by
    rw [(adds_absorb a hg hp).features]
    exact Set.subset_union_right

theorem Has.absorb (h : Has a g p) (hg : g.WellFormed) (hq : q.graph.WellFormed) :
    Has a (absorb a g q) p where
  functions f hf := by
    rw [absorb_eq_joinUnit a hq]
    exact knows_takeRest (knows_foldl_joinFunction (h.functions f hf) q.index _) q
  features := by
    rw [(adds_absorb a hg hq).features]
    exact h.features.trans Set.subset_union_left

theorem has_foldl_absorb (a : Arbitration) {units : List UnitGraph}
    (hunits : ∀ p ∈ units, p.graph.WellFormed) (hg : g.WellFormed) (hp : p ∈ units) :
    Has a (units.foldl (Merge.absorb a) g) p := by
  obtain ⟨before, after, rfl⟩ := List.append_of_mem hp
  have hstart := wellFormed_foldl_absorb a
    (fun r hr => hunits r (List.mem_append_left _ hr)) hg
  have hp' := hunits p hp
  rw [List.foldl_append, List.foldl_cons]
  refine (List.foldlRecOn (motive := fun g : Graph => g.WellFormed ∧ Has a g p) after _
    ⟨(adds_absorb a hstart hp').wellFormed, has_absorb_self a hstart hp'⟩ ?_).2
  intro g hg r hr
  have hr' := hunits r (List.mem_append_right _ (List.mem_cons_of_mem _ hr))
  exact ⟨(adds_absorb a hg.1 hr').wellFormed, hg.2.absorb hg.1 hr'⟩

theorem resembles_foldl_takeDiagnostic (named : Bool) (ds : List Diagnostic) (g : Graph) :
    g.Resembles named (ds.foldl takeDiagnostic g) := by
  refine .foldl_of_forall (fun g d => ?_) ds g
  rw [takeDiagnostic]
  split
  · exact .refl named g
  · exact .addDiagnostic named g d

/-- Graphs that resemble each other take over the same from a unit. -/
theorem resembles_absorb (hg : g.Resembles named g') (hp : p.graph.WellFormed)
    (ha : a.excludes p.index = a'.excludes p.index) :
    (absorb a g p).Resembles named (absorb a' g' p) := by
  have hfunctions : (p.graph.nodes.foldl (joinFunction a p.index) g).Resembles named
      (p.graph.nodes.foldl (joinFunction a' p.index) g') := by
    refine List.foldl_rel hg fun f _ g g' hg => ?_
    have hkept : keptFunction a p.index f = keptFunction a' p.index f := by
      rw [keptFunction_congr ha]
    exact (hg.addFunction (congrArg _ hkept)).1
  have hcalls : (p.graph.calls.foldl (joinCall a p.index)
      (p.graph.nodes.foldl (joinFunction a p.index) g)).Resembles named
        (p.graph.calls.foldl (joinCall a' p.index)
          (p.graph.nodes.foldl (joinFunction a' p.index) g')) := by
    refine List.foldl_rel hfunctions fun c _ g g' hg => ?_
    rw [joinCall, joinCall, keepsCall, keepsCall, ha]
    split
    · exact hg.addCall c
    · exact hg
  rw [absorb_eq_joinUnit a hp, absorb_eq_joinUnit a' hp]
  exact ((resembles_foldl_takeDiagnostic named _ _).symm.trans hcalls).trans
    (resembles_foldl_takeDiagnostic named _ _)

/-- A unit with the facts of another one, under a name of its own and a later index. -/
structure IsCopy (p q : UnitGraph) : Prop where
  index : p.index < q.index
  unit : q.unit = { p.unit with name := q.unit.name }
  graph : p.graph.Resembles false q.graph

/-- A graph that has all that is taken over from a unit takes over nothing from a copy. -/
theorem resembles_absorb_copy (named : Bool) (hq : IsCopy p q) (hwell : q.graph.WellFormed)
    (hg : g.WellFormed) (h : Has a g p) (hcopy : a.excludes q.index = a.excludes p.index) :
    g.Resembles named (absorb a g q) := by
  have hfunctions : q.graph.nodes.foldl (joinFunction a q.index) g = g := by
    refine List.foldlRecOn (motive := fun g' => g' = g) _ _ rfl ?_
    intro g' hg' f' hf'
    obtain ⟨f, hf, hsame⟩ := hq.graph.symm.exists_shown_eq hf'
    obtain ⟨known, hknown, hkey, hcovers⟩ := h.functions f hf
    have hkept := shown_keptFunction a q.index hsame
    rw [hg', joinFunction]
    refine addFunction_of_knows hg (f := keptFunction a q.index f') ⟨known, hknown, ?_, ?_⟩
    · rw [hkey, keptFunction_congr hcopy.symm, Function.key_eq_of_shown hkept]
    · rw [keptFunction_congr hcopy.symm] at hcovers
      exact hcovers.of_shown hkept.symm
  have hcalls : q.graph.calls.foldl (joinCall a q.index) g = g := by
    refine List.foldlRecOn (motive := fun g' => g' = g) _ _ rfl ?_
    intro g' hg' c hc
    rw [hg', joinCall]
    split
    · next hkeep =>
      refine addCall_of_mem hg (h.features ⟨?_, ?_⟩)
      · rw [hq.graph.features_eq]
        exact call_mem_features.mpr ⟨c, hc, rfl, rfl, rfl, rfl⟩
      · rw [keepsCall, hcopy] at hkeep
        exact hkeep
    · rfl
  rw [absorb_eq_joinUnit a hwell, joinUnit, hfunctions, hcalls]
  exact resembles_foldl_takeDiagnostic named _ g

/-- The union with a copy is the union without it. -/
theorem resembles_unionGraph (named : Bool) {before after : List UnitGraph} (hq : IsCopy p q)
    (hp : p ∈ before) (hwell : ∀ r ∈ before ++ after, r.graph.WellFormed)
    (hcopyWell : q.graph.WellFormed)
    (hsame : ∀ r ∈ before ++ after, a.excludes r.index = a'.excludes r.index)
    (hcopy : a'.excludes q.index = a'.excludes p.index) :
    (unionGraph a (before ++ after)).Resembles named
      (unionGraph a' (before ++ q :: after)) := by
  have hconflicts : ∀ (ds : List Diagnostic) (g : Graph),
      g.Resembles named (ds.foldl Graph.addDiagnostic g) := by
    intro ds g
    exact .foldl_of_forall (Resembles.addDiagnostic named) ds g
  have hbefore : ∀ r ∈ before, r.graph.WellFormed :=
    fun r hr => hwell r (List.mem_append_left _ hr)
  have hstart : (before.foldl (absorb a) .empty).Resembles named
      (before.foldl (absorb a') .empty) := by
    refine List.foldl_rel (.refl named .empty) fun r hr g g' hg => ?_
    exact resembles_absorb hg (hbefore r hr) (hsame r (List.mem_append_left _ hr))
  have hidle := resembles_absorb_copy named hq hcopyWell
    (wellFormed_foldl_absorb a' hbefore wellFormed_empty)
    (has_foldl_absorb a' hbefore wellFormed_empty hp) hcopy
  have hrest : ((before ++ after).foldl (absorb a) .empty).Resembles named
      ((before ++ q :: after).foldl (absorb a') .empty) := by
    rw [List.foldl_append, List.foldl_append, List.foldl_cons]
    refine List.foldl_rel (hstart.trans hidle) fun r hr g g' hg => ?_
    exact resembles_absorb hg (hwell r (List.mem_append_right _ hr))
      (hsame r (List.mem_append_right _ hr))
  exact ((hconflicts _ _).symm.trans hrest).trans (hconflicts _ _)

end Absorption

/-! ## Arbitration -/

section Copies

variable {parts : List UnitGraph} {p q : UnitGraph} {key : FunctionKey}

theorem IsCopy.defines_iff (hq : IsCopy p q) : q.unit.Defines key ↔ p.unit.Defines key := by
  rw [hq.unit]
  exact Iff.rfl

theorem IsCopy.fingerprint?_eq (hq : IsCopy p q) (digest : String → String) (key : FunctionKey) :
    q.unit.fingerprint? digest key = p.unit.fingerprint? digest key := by
  rw [hq.unit]
  rfl

/-- A copy defines no function first, because the unit itself comes before it. -/
theorem firstDefiner_append_iff (hq : IsCopy p q) (hp : p ∈ parts) {w : UnitGraph} :
    FirstDefiner (parts ++ [q]) key w ↔ FirstDefiner parts key w := by
  constructor
  · intro hw
    have hleast : ∀ r ∈ parts, r.unit.Defines key → w.index ≤ r.index :=
      fun r hr => hw.least r (List.mem_append_left _ hr)
    rcases List.mem_append.mp hw.mem with hmem | hmem
    · exact ⟨hmem, hw.defines, hleast⟩
    · obtain rfl := List.mem_singleton.mp hmem
      have hle := hleast p hp (hq.defines_iff.mp hw.defines)
      have hlt := hq.index
      omega
  · intro hw
    refine ⟨List.mem_append_left _ hw.mem, hw.defines, fun r hr hdefines => ?_⟩
    rcases List.mem_append.mp hr with hr | hr
    · exact hw.least r hr hdefines
    · obtain rfl := List.mem_singleton.mp hr
      have hle := hw.least p hp (hq.defines_iff.mp hdefines)
      have hlt := hq.index
      omega

theorem conflicts_append_iff (hq : IsCopy p q) (hp : p ∈ parts) {w r : UnitGraph}
    (hr : r ∈ parts) :
    Conflicts digest (parts ++ [q]) key w r ↔ Conflicts digest parts key w r := by
  constructor
  · intro h
    exact ⟨(firstDefiner_append_iff hq hp).mp h.first, hr, h.defines, h.differs⟩
  · intro h
    exact ⟨(firstDefiner_append_iff hq hp).mpr h.first, List.mem_append_left _ hr, h.defines,
      h.differs⟩

/-- A copy conflicts with whatever the unit conflicts with. -/
theorem conflicts_copy_iff (hq : IsCopy p q) (hp : p ∈ parts) {w : UnitGraph} :
    Conflicts digest (parts ++ [q]) key w q ↔ Conflicts digest parts key w p := by
  constructor
  · intro h
    refine ⟨(firstDefiner_append_iff hq hp).mp h.first, hp, hq.defines_iff.mp h.defines, ?_⟩
    rw [← hq.fingerprint?_eq]
    exact h.differs
  · intro h
    refine ⟨(firstDefiner_append_iff hq hp).mpr h.first,
      List.mem_append_right _ List.mem_cons_self, hq.defines_iff.mpr h.defines, ?_⟩
    rw [hq.fingerprint?_eq]
    exact h.differs

theorem excludes_iff_of_mem (hdistinct : (parts.map (·.index)).Nodup) {r : UnitGraph}
    (hr : r ∈ parts) : (ofUnits digest (inOrder parts)).excludes r.index key = true ↔
      ∃ w, Conflicts digest parts key w r := by
  rw [excludes, decide_eq_true_iff, mem_excluded_iff hdistinct]
  constructor
  · rintro ⟨w, r', hconflicts, hindex⟩
    obtain rfl := eq_of_index_eq hdistinct hconflicts.mem hr hindex
    exact ⟨w, hconflicts⟩
  · rintro ⟨w, hconflicts⟩
    exact ⟨w, r, hconflicts, rfl⟩

theorem nodup_of_append (hdistinct : ((parts ++ [q]).map (·.index)).Nodup) :
    (parts.map (·.index)).Nodup := by
  rw [List.map_append] at hdistinct
  exact hdistinct.of_append_left

/-- A copy leaves the definitions of other units excluded or not, as they were. -/
theorem excludes_append (hdistinct : ((parts ++ [q]).map (·.index)).Nodup) (hq : IsCopy p q)
    (hp : p ∈ parts) {r : UnitGraph} (hr : r ∈ parts) :
    (ofUnits digest (inOrder parts)).excludes r.index =
      (ofUnits digest (inOrder (parts ++ [q]))).excludes r.index := by
  funext key
  rw [Bool.eq_iff_iff, excludes_iff_of_mem (nodup_of_append hdistinct) hr,
    excludes_iff_of_mem hdistinct (List.mem_append_left _ hr)]
  exact exists_congr fun w => (conflicts_append_iff hq hp hr).symm

/-- The definitions in a copy are excluded where those in the unit are. -/
theorem excludes_copy (hdistinct : ((parts ++ [q]).map (·.index)).Nodup) (hq : IsCopy p q)
    (hp : p ∈ parts) : (ofUnits digest (inOrder (parts ++ [q]))).excludes q.index =
      (ofUnits digest (inOrder (parts ++ [q]))).excludes p.index := by
  rw [← excludes_append hdistinct hq hp hp]
  funext key
  rw [Bool.eq_iff_iff, excludes_iff_of_mem (nodup_of_append hdistinct) hp,
    excludes_iff_of_mem hdistinct (List.mem_append_right _ List.mem_cons_self)]
  exact exists_congr fun w => conflicts_copy_iff hq hp

/-! ## Facts -/

/-- A copy comes somewhere after the unit, and the other units stay in their order. -/
theorem exists_inOrder_append (hdistinct : ((parts ++ [q]).map (·.index)).Nodup)
    (hlt : p.index < q.index) (hp : p ∈ parts) : ∃ before after, p ∈ before ∧
      inOrder parts = before ++ after ∧ inOrder (parts ++ [q]) = before ++ q :: after := by
  obtain ⟨before, after, hwith, hwithout, -⟩ : ∃ before after,
      inOrder (q :: parts) = before ++ q :: after ∧ inOrder parts = before ++ after ∧ _ := by
    refine List.mergeSort_cons ?_ ?_ q parts
    · intro a b c hab hbc
      simp only [decide_eq_true_eq] at hab hbc ⊢
      omega
    · intro a b
      simp only [Bool.or_eq_true, decide_eq_true_eq]
      omega
  have hperm : (q :: parts).Perm (parts ++ [q]) := (List.perm_append_singleton q parts).symm
  have hdistinct' : ((q :: parts).map (·.index)).Nodup := (hperm.map _).nodup_iff.mpr hdistinct
  have hsorted := pairwise_lt_inOrder hdistinct'
  have horder : inOrder (q :: parts) = inOrder (parts ++ [q]) := by
    refine List.Perm.eq_of_pairwise ?_ hsorted (pairwise_lt_inOrder hdistinct)
      ((List.mergeSort_perm _ _).trans (hperm.trans (List.mergeSort_perm _ _).symm))
    intro a b _ _ hab hba
    omega
  refine ⟨before, after, ?_, hwithout, horder.symm.trans hwith⟩
  have hmem : p ∈ before ++ after := hwithout ▸ List.mem_mergeSort.mpr hp
  rcases List.mem_append.mp hmem with hmem | hmem
  · exact hmem
  · have hq : (q :: after).Pairwise fun p q => p.index < q.index :=
      (List.pairwise_append.mp (hwith ▸ hsorted)).2.1
    have hafter := (List.pairwise_cons.mp hq).1 p hmem
    omega

end Copies

theorem keptFacts_congr {a a' : Arbitration} {p : UnitGraph}
    (ha : a.excludes p.index = a'.excludes p.index) : keptFacts a p = keptFacts a' p := by
  rw [keptFacts, keptFacts, ha]

/-- The facts with a copy repeat the facts without it. -/
theorem facts_repeats {a a' : Arbitration} {before after : List UnitGraph} {p q : UnitGraph}
    (hq : IsCopy p q) (hp : p ∈ before)
    (hsame : ∀ r ∈ before ++ after, a.excludes r.index = a'.excludes r.index)
    (hcopy : a'.excludes q.index = a'.excludes p.index) :
    (facts a (before ++ after)).Repeats (facts a' (before ++ q :: after)) := by
  have hkept : facts a (before ++ after) = facts a' (before ++ after) := by
    rw [facts, facts, List.map_congr_left fun r hr => keptFacts_congr (hsame r hr)]
  have hfacts : { keptFacts a' p with name := (keptFacts a' q).name } = keptFacts a' q := by
    rw [keptFacts, keptFacts, hcopy, hq.unit]
  have hechoes : ∀ {β : Type} (field : TranslationUnit → List β),
      field (keptFacts a' q) = field (keptFacts a' p) →
      Echoes [] (((before ++ after).map (keptFacts a')).flatMap field)
        (((before ++ q :: after).map (keptFacts a')).flatMap field) := by
    intro β field hfield
    simp only [List.map_append, List.map_cons, List.flatMap_append, List.flatMap_cons, hfield]
    refine .insert _ _ _ fun x hx => List.mem_flatMap.mpr ⟨_, List.mem_map_of_mem hp, hx⟩
  rw [hkept]
  exact ⟨hechoes (·.functions) (by rw [← hfacts]), hechoes (·.classes) (by rw [← hfacts]),
    hechoes (·.callSites) (by rw [← hfacts]), hechoes (·.assignments) (by rw [← hfacts]),
    hechoes (·.lifetimeEvents) (by rw [← hfacts])⟩

/-! ## The merge -/

theorem exists_resolve_of_repeats {named : Bool} {options : Options} {u u' : TranslationUnit}
    {g g' g₁ : Graph} {flow : FlowReport} (hname : u.name = u'.name) (hu : u.Repeats u')
    (hwell : g.WellFormed) (hg : g.Resembles named g')
    (hresolve : resolve options u g = .ok (g₁, flow)) :
    ∃ g₁' flow', resolve options u' g' = .ok (g₁', flow') ∧ g₁.Resembles named g₁' := by
  have hs := Scope.Resembles.refl named { unit := u.name, isGlobal := true }
  simp only [resolve, ← hname] at hresolve ⊢
  split at hresolve
  · exact absurd hresolve (by simp)
  · next g₂ h dispatch hvirtual =>
    split at hresolve
    · exact absurd hresolve (by simp)
    · next g₃ flow' hpointers =>
      obtain ⟨g₂', dispatch', g₃', flow'', hvirtual', hpointers', hgraph⟩ :=
        exists_passes_of_repeats hs hu hwell hg hvirtual hpointers
      obtain ⟨rfl, -⟩ := Prod.mk.inj (Except.ok.inj hresolve)
      simp only [hvirtual', hpointers']
      exact ⟨_, _, rfl, hgraph⟩

theorem exists_run_append {options : Options} {cancelled : Bool} {parts : List UnitGraph}
    {p q : UnitGraph} {g : Graph} {stats : MergeStats}
    (hdistinct : ((parts ++ [q]).map (·.index)).Nodup)
    (hwell : ∀ r ∈ parts, r.graph.WellFormed) (hcopyWell : q.graph.WellFormed) (hp : p ∈ parts)
    (hq : IsCopy p q) (hrun : (run digest options cancelled parts).2 = .ok (g, stats)) :
    ∃ g' stats', (run digest options cancelled (parts ++ [q])).2 = .ok (g', stats') ∧
      g.Resembles true g' := by
  obtain ⟨hcancelled, flow, hresolve⟩ := exists_stats_iff.mp ⟨stats, hrun⟩
  obtain ⟨before, after, hbefore, horder, horder'⟩ := exists_inOrder_append hdistinct hq.index hp
  have hmem : ∀ r ∈ before ++ after, r ∈ parts := by
    rw [← horder]
    exact fun r hr => List.mem_mergeSort.mp hr
  have hsame : ∀ r ∈ before ++ after, (ofUnits digest (inOrder parts)).excludes r.index =
      (ofUnits digest (inOrder (parts ++ [q]))).excludes r.index :=
    fun r hr => excludes_append hdistinct hq hp (hmem r hr)
  have hcopy : (ofUnits digest (inOrder (parts ++ [q]))).excludes q.index =
      (ofUnits digest (inOrder (parts ++ [q]))).excludes p.index := excludes_copy hdistinct hq hp
  have hgraph := resembles_unionGraph true hq hbefore (fun r hr => hwell r (hmem r hr)) hcopyWell
    hsame hcopy
  have hfacts : (mergedFacts digest parts).Repeats (mergedFacts digest (parts ++ [q])) := by
    have hrepeats := facts_repeats hq hbefore hsame hcopy
    rw [← horder, ← horder'] at hrepeats
    exact hrepeats
  rw [← horder, ← horder'] at hgraph
  have hunion :=
    (adds_unionGraph (ofUnits digest (inOrder parts)) (wellFormed_inOrder hwell)).wellFormed
  have hname : (mergedFacts digest parts).name = (mergedFacts digest (parts ++ [q])).name := rfl
  obtain ⟨g', flow', hresolve', hg⟩ :=
    exists_resolve_of_repeats hname hfacts hunion hgraph hresolve
  obtain ⟨stats', hrun'⟩ := exists_stats_iff.mpr ⟨hcancelled, flow', hresolve'⟩
  exact ⟨g', stats', hrun', hg⟩

theorem analyseIndexed_append {options : Options} {cancelled : Bool}
    {units : List (Nat × TranslationUnit)} {parts : List UnitGraph} {j : Nat} {u : TranslationUnit}
    {q : UnitGraph} (hparts : UnitGraph.analyseIndexed options cancelled units = .ok parts)
    (hq : UnitGraph.analyse options cancelled j u = .ok q) :
    UnitGraph.analyseIndexed options cancelled (units ++ [(j, u)]) = .ok (parts ++ [q]) := by
  rw [UnitGraph.analyseIndexed] at hparts ⊢
  rw [List.mapM_append, hparts, List.mapM_cons]
  dsimp only
  rw [hq]
  rfl

/-- To merge a unit once more, under whatever name and at a later index, changes nothing: the
functions are the same at the same nodes, and the edges are the same in the same order. -/
theorem repeatedUnit_irrelevant {options : Options} {cancelled : Bool}
    {units : List (Nat × TranslationUnit)} {parts : List UnitGraph} {g : Graph}
    {stats : MergeStats} (hdistinct : (units.map (·.1)).Nodup)
    (hparts : UnitGraph.analyseIndexed options cancelled units = .ok parts)
    (hrun : (run digest options cancelled parts).2 = .ok (g, stats)) {i j : Nat}
    {u : TranslationUnit} (hu : (i, u) ∈ units) (hlt : i < j) (hnew : j ∉ units.map (·.1))
    (name : String) :
    ∃ parts' g' stats', UnitGraph.analyseIndexed options cancelled
        (units ++ [(j, { u with name := name })]) = .ok parts' ∧
      (run digest options cancelled parts').2 = .ok (g', stats') ∧ g'.nodes = g.nodes ∧
      g'.edges = g.edges := by
  have hunits := UnitGraph.map_of_analysed (UnitGraph.analysed_of_analyseIndexed hparts)
  obtain ⟨p, hp, hpu⟩ : ∃ p ∈ parts, (p.index, p.unit) = (i, u) :=
    List.mem_map.mp (hunits.symm ▸ hu)
  obtain ⟨rfl, rfl⟩ := Prod.mk.inj hpu
  obtain ⟨q, hq, hgraph⟩ :=
    UnitGraph.exists_analyse_rename (UnitGraph.analyse_of_mem hparts hp) j name
  have hanalysed := UnitGraph.analysed_of_analyse hq
  have hcopy : IsCopy p q := by
    refine ⟨hanalysed.index.symm ▸ hlt, ?_, hgraph⟩
    rw [hanalysed.unit]
  have hindices : ((parts ++ [q]).map (·.index)).Nodup := by
    have hmap : (parts ++ [q]).map (·.index) = units.map (·.1) ++ [j] := by
      rw [List.map_append, ← hunits, List.map_map, List.map_singleton, hanalysed.index]
      rfl
    rw [hmap]
    exact hdistinct.append (List.nodup_singleton j) (by simpa using hnew)
  obtain ⟨g', stats', hrun', hg⟩ := exists_run_append hindices
    (fun r hr => UnitGraph.wellFormed_of_mem hparts hr) hanalysed.wellFormed hp hcopy hrun
  obtain ⟨hnodes, hedges⟩ := hg.eq_of_named
  exact ⟨parts ++ [q], g', stats', analyseIndexed_append hparts hq, hrun', hnodes.symm, hedges.symm⟩

/-- A unit with an `f` and a `main` that calls through a variable. -/
def callingUnit (name hash : String) : TranslationUnit where
  name := name
  functions := [{ key := "f", defined := true, bodyHash := some hash },
    { key := "main", defined := true }]
  callSites := [{ caller := "f", target := .direct "h" },
    { caller := "main", target := .pointer (.global "callback") }]
  assignments := [{ source := .function "g", destination := .global "callback" }]

/-- Three units, the second one with another `f` than the first one. -/
def callbackUnits : List (Nat × TranslationUnit) :=
  [(1, { name := "first", functions := [{ key := "f", defined := true, bodyHash := some "a" }] }),
    (2, callingUnit "second" "b"),
    (4, { name := "third",
          assignments := [{ source := .function "k", destination := .global "callback" }] })]

/-- A unit that loses its `f` is merged twice, with another unit after the copy. -/
theorem callbackUnits_repeated : ∃ parts g stats parts' g' stats',
    UnitGraph.analyseIndexed {} false callbackUnits = .ok parts ∧
    (run id {} false parts).2 = .ok (g, stats) ∧ stats.odrConflicts = 1 ∧ g.edges.length = 2 ∧
    UnitGraph.analyseIndexed {} false (callbackUnits ++ [(3, callingUnit "copy" "b")]) =
      .ok parts' ∧
    (run id {} false parts').2 = .ok (g', stats') ∧ g'.nodes = g.nodes ∧ g'.edges = g.edges := by
  obtain ⟨parts, g, stats, hparts, hrun, hconflicts, hedges⟩ : ∃ parts g stats,
      UnitGraph.analyseIndexed {} false callbackUnits = .ok parts ∧
      (run id {} false parts).2 = .ok (g, stats) ∧ stats.odrConflicts = 1 ∧ g.edges.length = 2 :=
    ⟨_, _, _, by cbv, by cbv, by decide, by decide⟩
  have hu : (2, callingUnit "second" "b") ∈ callbackUnits := by decide
  obtain ⟨parts', g', stats', hcopied⟩ :=
    @repeatedUnit_irrelevant id {} false _ _ _ _ (by decide) hparts hrun 2 3 _ hu (by decide)
      (by decide) "copy"
  exact ⟨parts, g, stats, parts', g', stats', hparts, hrun, hconflicts, hedges, hcopied⟩

end Merge

end CallGraphs
