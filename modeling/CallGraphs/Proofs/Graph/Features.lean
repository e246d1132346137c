import CallGraphs.Analysis.Scope
import Mathlib.Data.List.Nodup
import Mathlib.Data.Set.Insert
import Mathlib.Tactic.Tauto

/-!
# What a graph shows

A graph seen from outside, by keys: which functions it has, which of them have
a body, and who calls whom in which way (`Feature`).  Node numbers, the order
of edges, origins and diagnostics are left out.

Graphs only grow, and every operation on them adds a set of features that does
not depend on what is there already.  `Adds g g' S` says that, and that the
nodes of `g` keep their numbers; a pass over a list of facts then adds the
features of all the facts (`Adds.foldl`).
-/

namespace CallGraphs

/-- Something that a graph shows. -/
inductive Feature where
  /-- A function is in the graph. -/
  | node (key : FunctionKey)
  /-- A function has a body. -/
  | body (key : FunctionKey)
  /-- One function calls another. -/
  | call (caller callee : FunctionKey) (kind : EdgeKind) (confidence : Confidence)
deriving DecidableEq

/-- Whatever belongs to some element of a list. -/
def gather {α : Type} (l : List α) (S : α → Set Feature) : Set Feature := {x | ∃ a ∈ l, x ∈ S a}

theorem gather_nil {α : Type} (S : α → Set Feature) : gather [] S = ∅ := by
  simp [gather]

theorem gather_empty {α : Type} (l : List α) : gather l (fun _ => ∅) = ∅ := by
  simp [gather]

theorem gather_cons {α : Type} (a : α) (l : List α) (S : α → Set Feature) :
    gather (a :: l) S = S a ∪ gather l S := by
  ext x
  simp [gather]

theorem gather_flatMap {α β : Type} (l : List α) (f : α → List β) (S : β → Set Feature) :
    gather (l.flatMap f) S = gather l fun a => gather (f a) S := by
  ext x
  simp only [gather, List.mem_flatMap, Set.mem_ofPred_eq]
  constructor
  · rintro ⟨b, ⟨a, ha, hb⟩, hx⟩
    exact ⟨a, ha, b, hb, hx⟩
  · rintro ⟨a, ha, b, hb, hx⟩
    exact ⟨b, ⟨a, ha, hb⟩, hx⟩

namespace Graph

/-- The keys of the nodes. -/
def keys (g : Graph) : List FunctionKey := g.nodes.map (·.key)

@[simp]
theorem length_keys (g : Graph) : g.keys.length = g.size := by
  simp [keys, size]

/-- The graph shows a feature. -/
def Shows (g : Graph) : Feature → Prop
  | .node key => key ∈ g.keys
  | .body key => ∃ f ∈ g.nodes, f.key = key ∧ f.hasBody = true
  | .call caller callee kind confidence => ∃ e ∈ g.edges, g.keyOf e.edge.caller = caller ∧
      g.keyOf e.edge.callee = callee ∧ e.edge.kind = kind ∧ e.edge.confidence = confidence

/-- All that a graph shows. -/
def features (g : Graph) : Set Feature := {x | g.Shows x}

/-- One key has one node, and edges lead from node to node. -/
structure WellFormed (g : Graph) : Prop where
  nodup : g.keys.Nodup
  closed : ∀ e ∈ g.edges, e.edge.caller < g.size ∧ e.edge.callee < g.size

theorem wellFormed_empty : empty.WellFormed :=
  ⟨List.nodup_nil, fun _ h => absurd h List.not_mem_nil⟩

theorem features_empty : empty.features = ∅ := by
  ext x
  cases x <;> simp [features, Shows, empty, keys]

/-! ## Keys and numbers -/

theorem keyOf_eq (g : Graph) (id : NodeId) : g.keyOf id = (g.keys[id]?).getD "" := by
  simp [keyOf, node?, keys]

theorem keyOf_of_getElem? {g : Graph} {id : NodeId} {key : FunctionKey}
    (h : g.keys[id]? = some key) : g.keyOf id = key := by
  rw [keyOf_eq, h, Option.getD_some]

theorem getElem?_keyOf {g : Graph} {id : NodeId} (h : id < g.size) :
    g.keys[id]? = some (g.keyOf id) := by
  rw [keyOf_eq, List.getElem?_eq_getElem (by simpa using h), Option.getD_some]

theorem nodeId?_eq (g : Graph) (key : FunctionKey) :
    g.nodeId? key = g.keys.findIdx? (· == key) := by
  simp [nodeId?, keys, List.findIdx?_map, Function.comp_def]

theorem getElem?_of_nodeId? {g : Graph} {key : FunctionKey} {id : NodeId}
    (h : g.nodeId? key = some id) : g.keys[id]? = some key := by
  rw [nodeId?_eq, List.findIdx?_eq_some_iff_getElem] at h
  obtain ⟨hlt, hkey, -⟩ := h
  rw [List.getElem?_eq_getElem hlt, eq_of_beq hkey]

theorem nodeId?_eq_none_iff {g : Graph} {key : FunctionKey} :
    g.nodeId? key = none ↔ key ∉ g.keys := by
  rw [nodeId?_eq, List.findIdx?_eq_none_iff]
  constructor
  · exact fun h hmem => absurd (h key hmem) (by simp)
  · intro h k hk
    simpa using ne_of_mem_of_not_mem hk h

theorem keyOf_of_nodeId? {g : Graph} {key : FunctionKey} {id : NodeId}
    (h : g.nodeId? key = some id) : g.keyOf id = key :=
  keyOf_of_getElem? (getElem?_of_nodeId? h)

theorem lt_size_of_nodeId? {g : Graph} {key : FunctionKey} {id : NodeId}
    (h : g.nodeId? key = some id) : id < g.size := by
  have hlt := (List.getElem?_eq_some_iff.mp (getElem?_of_nodeId? h)).1
  rwa [length_keys] at hlt

theorem nodeId?_keyOf {g : Graph} (hn : g.keys.Nodup) {id : NodeId} (h : id < g.size) :
    g.nodeId? (g.keyOf id) = some id := by
  have hkey := getElem?_keyOf h
  cases hfind : g.nodeId? (g.keyOf id) with
  | none => exact absurd (List.mem_of_getElem? hkey) (nodeId?_eq_none_iff.mp hfind)
  | some other =>
      have hother := getElem?_of_nodeId? hfind
      have hlt := (List.getElem?_eq_some_iff.mp hother).1
      rw [(List.getElem?_inj hlt hn).mp (hother.trans hkey.symm)]

/-- One key has one number. -/
theorem keyOf_injOn {g : Graph} (hn : g.keys.Nodup) : Set.InjOn g.keyOf {id | id < g.size} := by
  intro m hm n hn' heq
  have hid := nodeId?_keyOf hn hm
  rw [heq, nodeId?_keyOf hn hn'] at hid
  exact (Option.some.inj hid).symm

theorem keyOf_of_isPrefix {g g' : Graph} (hpre : g.keys <+: g'.keys) {id : NodeId}
    (h : id < g.size) : g'.keyOf id = g.keyOf id := by
  have hlt : id < g.keys.length := by rwa [length_keys]
  refine keyOf_of_getElem? ?_
  rw [List.prefix_iff_getElem?.mp hpre id hlt, ← List.getElem?_eq_getElem hlt, getElem?_keyOf h]

theorem size_le_of_isPrefix {g g' : Graph} (hpre : g.keys <+: g'.keys) : g.size ≤ g'.size := by
  rw [← length_keys, ← length_keys]
  exact hpre.length_le

theorem node_mem_features {g : Graph} {key : FunctionKey} :
    .node key ∈ g.features ↔ ∃ id, g.nodeId? key = some id := by
  rw [← Option.isSome_iff_exists, ← Option.ne_none_iff_isSome]
  exact (not_iff_not.mpr nodeId?_eq_none_iff).trans not_not |>.symm

/-- The calls of a graph are the calls that it shows. -/
theorem call_mem_features {g : Graph} {caller callee : FunctionKey} {kind : EdgeKind}
    {confidence : Confidence} : .call caller callee kind confidence ∈ g.features ↔
      ∃ c ∈ g.calls, c.caller = caller ∧ c.callee = callee ∧ c.kind = kind ∧
        c.confidence = confidence := by
  simp only [calls, List.mem_map, exists_exists_and_eq_and]
  rfl

/-- The ends of a call are in the graph. -/
theorem WellFormed.ends {g : Graph} (hg : g.WellFormed) {c : Call} (hc : c ∈ g.calls) :
    .node c.caller ∈ g.features ∧ .node c.callee ∈ g.features := by
  obtain ⟨e, he, rfl⟩ := List.mem_map.mp hc
  obtain ⟨hcaller, hcallee⟩ := hg.closed e he
  exact ⟨List.mem_of_getElem? (getElem?_keyOf hcaller),
    List.mem_of_getElem? (getElem?_keyOf hcallee)⟩

/-! ## Growth -/

/-- The second graph is the first one with some features added. -/
structure Adds (g g' : Graph) (S : Set Feature) : Prop where
  keys : g.keys <+: g'.keys
  wellFormed : g'.WellFormed
  features : g'.features = g.features ∪ S

namespace Adds

variable {g g' g'' : Graph} {S T : Set Feature}

theorem refl (hg : g.WellFormed) : Adds g g ∅ :=
  ⟨List.prefix_refl _, hg, (Set.union_empty _).symm⟩

theorem trans (h : Adds g g' S) (h' : Adds g' g'' T) : Adds g g'' (S ∪ T) :=
  ⟨h.keys.trans h'.keys, h'.wellFormed, by rw [h'.features, h.features, Set.union_assoc]⟩

theorem congr (h : Adds g g' S) (hST : g.features ∪ S = g.features ∪ T) : Adds g g' T :=
  ⟨h.keys, h.wellFormed, h.features.trans hST⟩

/-- Bodies stay what they are if none is added. -/
theorem body_iff (h : Adds g g' S) (hS : ∀ key, .body key ∉ S) (key : FunctionKey) :
    .body key ∈ g'.features ↔ .body key ∈ g.features := by
  rw [h.features]
  exact or_iff_left (hS key)

/-- A pass over a list adds what each element adds.  The state of the pass holds a graph, of which
something may be known beside. -/
theorem foldl {σ α : Type} (graph : σ → Graph) (I : Graph → Prop) (step : σ → α → σ)
    {S : α → Set Feature} {l : List α} {st : σ}
    (hstep : ∀ st x, x ∈ l → (graph st).WellFormed → I (graph st) →
      Adds (graph st) (graph (step st x)) (S x) ∧ I (graph (step st x)))
    (hg : (graph st).WellFormed) (hI : I (graph st)) :
    Adds (graph st) (graph (l.foldl step st)) (gather l S) := by
  induction l generalizing st with
  | nil =>
      rw [gather_nil]
      exact .refl hg
  | cons x l ih =>
      rw [gather_cons]
      obtain ⟨hhead, hI'⟩ := hstep st x List.mem_cons_self hg hI
      exact hhead.trans (ih (fun st y hy => hstep st y (List.mem_cons_of_mem _ hy))
        hhead.wellFormed hI')

/-- A pass over a list whose steps do not depend on the graph. -/
theorem foldl_state {σ α : Type} (graph : σ → Graph) (step : σ → α → σ)
    {S : α → Set Feature} {l : List α} (st : σ)
    (hstep : ∀ st x, (graph st).WellFormed → Adds (graph st) (graph (step st x)) (S x))
    (hg : (graph st).WellFormed) : Adds (graph st) (graph (l.foldl step st)) (gather l S) :=
  foldl graph (fun _ => True) step (fun st x _ hg _ => ⟨hstep st x hg, trivial⟩) hg trivial

theorem foldl_graph {α : Type} (step : Graph → α → Graph) {S : α → Set Feature} {l : List α}
    (hstep : ∀ g x, g.WellFormed → Adds g (step g x) (S x)) (hg : g.WellFormed) :
    Adds g (l.foldl step g) (gather l S) :=
  foldl_state id step g hstep hg

/-- The edges stay what they are while the nodes grow. -/
theorem of_nodes (hg : g.WellFormed) (hpre : g.keys <+: g'.keys) (hn : g'.keys.Nodup)
    (hedges : g'.edges = g.edges) (hnode : ∀ key, key ∈ g'.keys ↔ key ∈ g.keys ∨ .node key ∈ S)
    (hbody : ∀ key, g'.Shows (.body key) ↔ g.Shows (.body key) ∨ .body key ∈ S)
    (hcall : ∀ a b kind confidence, .call a b kind confidence ∉ S) : Adds g g' S where
  keys := hpre
  wellFormed := by
    refine ⟨hn, fun e he => ?_⟩
    rw [hedges] at he
    obtain ⟨hcaller, hcallee⟩ := hg.closed e he
    have hle := size_le_of_isPrefix hpre
    exact ⟨hcaller.trans_le hle, hcallee.trans_le hle⟩
  features := by
    ext x
    cases x with
    | node key => exact hnode key
    | body key => exact hbody key
    | call a b kind confidence =>
        -- nodes keep their numbers, so the ends of an edge keep their keys
        have hsame : ∀ e ∈ g.edges, g'.keyOf e.edge.caller = g.keyOf e.edge.caller ∧
            g'.keyOf e.edge.callee = g.keyOf e.edge.callee := fun e he =>
          ⟨keyOf_of_isPrefix hpre (hg.closed e he).1, keyOf_of_isPrefix hpre (hg.closed e he).2⟩
        refine Iff.trans ?_ (or_iff_left (hcall a b kind confidence)).symm
        refine (exists_congr fun e => ?_ : (∃ e, _) ↔ ∃ e, _)
        rw [hedges]
        refine and_congr_right fun he => ?_
        rw [(hsame e he).1, (hsame e he).2]

end Adds

/-! ## Functions -/

/-- What a function of a graph shows. -/
def ofFunction (f : Function) : Set Feature :=
  {x | x = .node f.key ∨ f.hasBody = true ∧ x = .body f.key}

theorem keys_modifyNode {g : Graph} {id : NodeId} {change : Function → Function}
    (h : ∀ f, (change f).key = f.key) : (g.modifyNode id change).keys = g.keys := by
  refine List.ext_getElem? fun i => ?_
  simp only [keys, modifyNode, List.getElem?_map, List.getElem?_modify]
  cases g.nodes[i]? with
  | none => rfl
  | some f => by_cases hi : id = i <;> simp [hi, h]

theorem shows_body_iff {g : Graph} {key : FunctionKey} : g.Shows (.body key) ↔
    ∃ (id : NodeId) (f : Function), g.nodes[id]? = some f ∧ f.key = key ∧ f.hasBody = true := by
  constructor
  · rintro ⟨f, hf, hkey⟩
    obtain ⟨id, hid⟩ := List.mem_iff_getElem?.mp hf
    exact ⟨id, f, hid, hkey⟩
  · rintro ⟨id, f, hid, hkey⟩
    exact ⟨f, List.mem_of_getElem? hid, hkey⟩

theorem shows_body_modifyNode {g : Graph} {id : NodeId} {change : Function → Function}
    {f : Function} (hf : g.nodes[id]? = some f) (hkey : (change f).key = f.key) {b : Bool}
    (hbody : (change f).hasBody = (f.hasBody || b)) {key : FunctionKey} :
    (g.modifyNode id change).Shows (.body key) ↔
      g.Shows (.body key) ∨ b = true ∧ key = f.key := by
  simp only [shows_body_iff, modifyNode, List.getElem?_modify]
  constructor
  · rintro ⟨i, f', hi, rfl, hf'⟩
    by_cases heq : id = i
    · subst heq
      obtain rfl : change f = f' := by simpa [hf] using hi
      rw [hbody, Bool.or_eq_true] at hf'
      exact hf'.imp (fun h => ⟨id, f, hf, hkey.symm, h⟩) fun h => ⟨h, hkey⟩
    · exact Or.inl ⟨i, f', by simpa [heq] using hi, rfl, hf'⟩
  · rintro (⟨i, f', hi, rfl, hf'⟩ | ⟨hb, rfl⟩)
    · by_cases heq : id = i
      · subst heq
        obtain rfl := Option.some.inj (hf.symm.trans hi)
        exact ⟨id, change f, by simp [hf], hkey, by rw [hbody, hf', Bool.true_or]⟩
      · exact ⟨i, f', by simpa [heq] using hi, rfl, hf'⟩
    · exact ⟨id, change f, by simp [hf], hkey, by rw [hbody, hb, Bool.or_true]⟩

/-- A change to a node that leaves its key as it is and its body, unless it gets one. -/
theorem adds_modifyNode {g : Graph} (hg : g.WellFormed) {id : NodeId}
    {change : Function → Function} (hkey : ∀ f, (change f).key = f.key) {b : Bool}
    (hbody : ∀ f, (change f).hasBody = (f.hasBody || b)) :
    Adds g (g.modifyNode id change) {x | b = true ∧ x = .body (g.keyOf id) ∧ id < g.size} := by
  have hkeys : (g.modifyNode id change).keys = g.keys := keys_modifyNode hkey
  refine .of_nodes hg (hkeys ▸ List.prefix_refl _) (hkeys ▸ hg.nodup) rfl (fun key => ?_)
    (fun key => ?_) (fun a b kind confidence => by simp)
  · rw [hkeys]
    simp
  · by_cases hid : id < g.size
    · obtain ⟨f, hf⟩ : ∃ f, g.nodes[id]? = some f := ⟨_, List.getElem?_eq_getElem hid⟩
      have hname : g.keyOf id = f.key := by simp [keyOf, node?, hf]
      rw [shows_body_modifyNode hf (hkey _) (hbody _)]
      simp [hname, hid]
    · have hsame : g.modifyNode id change = g := by
        rw [modifyNode, List.modify_eq_self (Nat.le_of_not_lt hid)]
      rw [hsame]
      simp [hid]

theorem adds_modifyNode_of_sameBody {g : Graph} (hg : g.WellFormed) (id : NodeId)
    (change : Function → Function) (hkey : ∀ f, (change f).key = f.key)
    (hbody : ∀ f, (change f).hasBody = f.hasBody) : Adds g (g.modifyNode id change) ∅ :=
  (adds_modifyNode hg hkey (b := false) (by simpa using hbody)).congr (by simp)

/-- A function with a new key. -/
theorem adds_append {g : Graph} (hg : g.WellFormed) {f : Function} (h : f.key ∉ g.keys) :
    Adds g { g with nodes := g.nodes ++ [f] } (ofFunction f) := by
  have hkeys : ({ g with nodes := g.nodes ++ [f] } : Graph).keys = g.keys ++ [f.key] := by
    simp [keys]
  refine .of_nodes hg (hkeys ▸ List.prefix_append _ _) ?_ rfl (fun key => ?_) (fun key => ?_)
    (fun a b kind confidence => by simp [ofFunction])
  · rw [hkeys]
    refine List.nodup_append.mpr ⟨hg.nodup, by simp, fun a ha b hb => ?_⟩
    rw [List.mem_singleton.mp hb]
    exact ne_of_mem_of_not_mem ha h
  · rw [hkeys]
    simp [ofFunction]
  · simp only [Shows, List.mem_append, List.mem_singleton, ofFunction]
    constructor
    · rintro ⟨f', hf' | rfl, rfl, hbody⟩
      · exact Or.inl ⟨f', hf', rfl, hbody⟩
      · exact Or.inr (Or.inr ⟨hbody, rfl⟩)
    · rintro (⟨f', hf', rfl, hbody⟩ | hnew | ⟨hbody, heq⟩)
      · exact ⟨f', Or.inl hf', rfl, hbody⟩
      · exact absurd hnew (by simp)
      · exact ⟨f, Or.inr rfl, (Feature.body.inj heq).symm, hbody⟩

theorem adds_addFunction {g : Graph} (hg : g.WellFormed) (f : Function) :
    Adds g (g.addFunction f).1 (ofFunction f) := by
  rw [addFunction]
  split
  · next id hid =>
    have hkey := keyOf_of_nodeId? hid
    have hnode : .node f.key ∈ g.features := List.mem_of_getElem? (getElem?_of_nodeId? hid)
    refine (adds_modifyNode hg (fun f' => f'.key_absorb f) (b := f.hasBody) fun _ => rfl).congr ?_
    rw [hkey]
    ext x
    simp only [ofFunction, Set.mem_union]
    constructor
    · rintro (hx | ⟨hb, rfl, -⟩)
      · exact Or.inl hx
      · exact Or.inr (Or.inr ⟨hb, rfl⟩)
    · rintro (hx | rfl | ⟨hb, rfl⟩)
      · exact Or.inl hx
      · exact Or.inl hnode
      · exact Or.inr ⟨hb, rfl, lt_size_of_nodeId? hid⟩
  · next hnone => exact adds_append hg (nodeId?_eq_none_iff.mp hnone)

/-- What is said of the node of a key that has been asked for. -/
structure Located (g g' : Graph) (key : FunctionKey) (id : NodeId) : Prop extends
    Adds g g' {.node key} where
  nodeId? : g'.nodeId? key = some id

theorem nodeId?_append {g : Graph} {f : Function} (h : f.key ∉ g.keys) :
    ({ g with nodes := g.nodes ++ [f] } : Graph).nodeId? f.key = some g.size := by
  have hnone := nodeId?_eq_none_iff.mpr h
  rw [nodeId?] at hnone ⊢
  simp [List.findIdx?_append, hnone, size]

theorem nodeId?_addFunction (g : Graph) (f : Function) :
    (g.addFunction f).1.nodeId? f.key = some (g.addFunction f).2 := by
  rw [addFunction]
  split
  · next id hid =>
    rw [nodeId?_eq] at hid ⊢
    rw [keys_modifyNode fun f' => f'.key_absorb f]
    exact hid
  · next hnone => exact nodeId?_append (nodeId?_eq_none_iff.mp hnone)

theorem isPrefix_keys_addFunction (g : Graph) (f : Function) :
    g.keys <+: (g.addFunction f).1.keys := by
  rw [addFunction]
  split
  · exact (keys_modifyNode fun f' => f'.key_absorb f).symm ▸ List.prefix_rfl
  · exact ⟨[f.key], by simp [keys]⟩

theorem located_addFunction {g : Graph} (hg : g.WellFormed) {f : Function}
    (hf : f.hasBody = false) : Located g (g.addFunction f).1 f.key (g.addFunction f).2 where
  toAdds := by
    refine (adds_addFunction hg f).congr ?_
    ext x
    simp [ofFunction, hf]
  nodeId? := nodeId?_addFunction g f

theorem located_of_nodeId? {g : Graph} (hg : g.WellFormed) {key : FunctionKey} {id : NodeId}
    (hid : g.nodeId? key = some id) : Located g g key id where
  toAdds := by
    have hnode : .node key ∈ g.features := List.mem_of_getElem? (getElem?_of_nodeId? hid)
    refine (Adds.refl hg).congr ?_
    rw [Set.union_empty, Set.union_eq_self_of_subset_right (Set.singleton_subset_iff.mpr hnode)]
  nodeId? := hid

theorem located_ensureNode {g : Graph} (hg : g.WellFormed) (key : FunctionKey) :
    Located g (g.ensureNode key).1 key (g.ensureNode key).2 := by
  rw [ensureNode]
  split
  · next id hid => exact located_of_nodeId? hg hid
  · exact located_addFunction hg (f := .declared key) rfl

theorem nodeId?_of_isPrefix {g g' : Graph} (hpre : g.keys <+: g'.keys) {key : FunctionKey}
    {id : NodeId} (h : g.nodeId? key = some id) : g'.nodeId? key = some id := by
  obtain ⟨more, hmore⟩ := hpre
  rw [nodeId?_eq] at h ⊢
  rw [← hmore, List.findIdx?_append, h]
  rfl

/-! ## Links, diagnostics and edges -/

theorem adds_linkOverride {g : Graph} (hg : g.WellFormed) (overrider base : FunctionKey) :
    Adds g (g.linkOverride overrider base) {.node overrider, .node base} := by
  simp only [linkOverride]
  have habove := located_ensureNode hg overrider
  have hbelow := located_ensureNode habove.wellFormed base
  have hboth : Adds g ((g.ensureNode overrider).1.ensureNode base).1
      {.node overrider, .node base} := habove.toAdds.trans hbelow.toAdds
  split
  · exact hboth
  · have hfirst := adds_modifyNode_of_sameBody hbelow.wellFormed (g.ensureNode overrider).2
      (fun f => { f with overrides := f.overrides.insert base }) (fun _ => rfl) fun _ => rfl
    have hsecond := adds_modifyNode_of_sameBody hfirst.wellFormed
      ((g.ensureNode overrider).1.ensureNode base).2
      (fun f => { f with overriddenBy := f.overriddenBy.insert overrider })
      (fun _ => rfl) fun _ => rfl
    simpa using (hboth.trans hfirst).trans hsecond

theorem adds_addDiagnostic {g : Graph} (hg : g.WellFormed) (d : Diagnostic) :
    Adds g (g.addDiagnostic d) ∅ := by
  rw [addDiagnostic]
  split
  · exact .refl hg
  · exact .of_nodes hg (List.prefix_refl _) hg.nodup rfl (by simp [keys]) (by simp [Shows])
      (by simp)

theorem adds_insertEdge {g : Graph} (hg : g.WellFormed) {source target : NodeId}
    (hs : source < g.size) (ht : target < g.size) (kind : EdgeKind) (confidence : Confidence)
    (origin : Option String) :
    Adds g (g.insertEdge ⟨source, target, kind, confidence⟩ origin).1
      {.call (g.keyOf source) (g.keyOf target) kind confidence} := by
  rw [insertEdge]
  split
  · refine ⟨List.prefix_refl _, ⟨hg.nodup, fun e he => ?_⟩, ?_⟩
    · rcases List.mem_append.mp he with hold | hnew
      · exact hg.closed e hold
      · rw [List.mem_singleton.mp hnew]
        exact ⟨hs, ht⟩
    · ext x
      cases x with
      | node key => simp [features, Shows, keys]
      | body key => simp [features, Shows]
      | call a b k c =>
          change (∃ e ∈ g.edges ++ [_], _) ↔ (∃ e ∈ g.edges, _) ∨ _
          simp only [List.mem_append, List.mem_singleton, or_and_right, exists_or, exists_eq_left,
            Set.mem_singleton_iff, Feature.call.injEq]
          refine or_congr Iff.rfl ?_
          constructor
          · rintro ⟨rfl, rfl, rfl, rfl⟩
            exact ⟨rfl, rfl, rfl, rfl⟩
          · rintro ⟨rfl, rfl, rfl, rfl⟩
            exact ⟨rfl, rfl, rfl, rfl⟩
  · next hcond =>
    -- both ends are nodes, so the edge was left out because it is there already
    have hcontains : g.containsEdge ⟨source, target, kind, confidence⟩ = true := by
      simpa [admits, hs, ht] using hcond
    obtain ⟨e, he, heq⟩ := List.any_eq_true.mp hcontains
    have heq' : e.edge = ⟨source, target, kind, confidence⟩ := of_decide_eq_true heq
    have hshown : .call (g.keyOf source) (g.keyOf target) kind confidence ∈ g.features :=
      ⟨e, he, by simp [heq']⟩
    refine (Adds.refl hg).congr ?_
    rw [Set.union_empty, Set.union_eq_self_of_subset_right (Set.singleton_subset_iff.mpr hshown)]

theorem Located.trans_adds {g g' g'' : Graph} {key : FunctionKey} {id : NodeId}
    (h : Located g g' key id) (h' : Adds g' g'' ∅) : Located g g'' key id where
  toAdds := by simpa using h.toAdds.trans h'
  nodeId? := nodeId?_of_isPrefix h'.keys h.nodeId?

end Graph

/-! ## Facts in a scope -/

namespace Scope

open CallGraphs.Graph

variable (s : Scope) {g : Graph}

theorem adds_malformed (hg : g.WellFormed) (detail : String) : Adds g (s.malformed g detail) ∅ := by
  rw [malformed]
  split
  · exact .refl hg
  · exact adds_addDiagnostic hg _

theorem located_reference (hg : g.WellFormed) (key : FunctionKey) (what : String) :
    Located g (s.reference g key what).1 key (s.reference g key what).2 := by
  rw [reference, ensureStub]
  cases hid : g.nodeId? key with
  | some id => exact located_of_nodeId? hg hid
  | none =>
      have hstub := located_addFunction hg (f := .stubOf key) rfl
      have hreported := hstub.trans_adds
        (s.adds_malformed hstub.wellFormed (what ++ " references unknown symbol " ++ key))
      dsimp only
      split
      · exact hreported
      · exact hreported.trans_adds
          (adds_modifyNode_of_sameBody hreported.wellFormed _ _ (fun _ => rfl) fun _ => rfl)

/-- What a call between two functions shows. -/
def ofCall (caller callee : FunctionKey) (kind : EdgeKind) (confidence : Confidence) :
    Set Feature :=
  {x | x = .node caller ∨ x = .node callee ∨ x = .call caller callee kind confidence}

theorem adds_call (hg : g.WellFormed) (caller callee : FunctionKey) (kind : EdgeKind)
    (confidence : Confidence) :
    Adds g (s.call g caller callee kind confidence).1 (ofCall caller callee kind confidence) := by
  simp only [call]
  have hsource := s.located_reference hg caller "call site caller"
  have htarget := s.located_reference hsource.wellFormed callee ("call from " ++ caller)
  have hid := nodeId?_of_isPrefix htarget.keys hsource.nodeId?
  have hedge := adds_insertEdge htarget.wellFormed (lt_size_of_nodeId? hid)
    (lt_size_of_nodeId? htarget.nodeId?) kind confidence s.origin
  rw [keyOf_of_nodeId? hid, keyOf_of_nodeId? htarget.nodeId?] at hedge
  refine ((hsource.toAdds.trans htarget.toAdds).trans hedge).congr ?_
  ext x
  simp only [ofCall, Set.mem_union, Set.mem_singleton_iff, Set.mem_ofPred_eq]
  tauto

/-- What calls from one function to several show. -/
def ofCalls (caller : FunctionKey) (callees : List FunctionKey) (kind : EdgeKind)
    (confidence : Confidence) : Set Feature :=
  gather callees fun callee => ofCall caller callee kind confidence

theorem adds_callAll (hg : g.WellFormed) (caller : FunctionKey) (callees : List FunctionKey)
    (kind : EdgeKind) (confidence : Confidence) :
    Adds g (s.callAll g caller callees kind confidence).1
      (ofCalls caller callees kind confidence) := by
  refine Adds.foldl_state Prod.fst _ (g, 0) (fun st callee hst => ?_) hg
  have hcall := s.adds_call hst caller callee kind confidence
  rcases hres : s.call st.1 caller callee kind confidence with ⟨g', isNew⟩
  rw [hres] at hcall
  cases isNew <;> simpa only [hres] using hcall

end Scope

namespace Graph

theorem adds_addCall {g : Graph} (hg : g.WellFormed) (c : Call) :
    Adds g (g.addCall c) (Scope.ofCall c.caller c.callee c.kind c.confidence) := by
  simp only [addCall]
  have hcaller := located_ensureNode hg c.caller
  have hcallee := located_ensureNode hcaller.wellFormed c.callee
  have hid := nodeId?_of_isPrefix hcallee.keys hcaller.nodeId?
  have hedge := adds_insertEdge hcallee.wellFormed (lt_size_of_nodeId? hid)
    (lt_size_of_nodeId? hcallee.nodeId?) c.kind c.confidence c.origin
  rw [keyOf_of_nodeId? hid, keyOf_of_nodeId? hcallee.nodeId?] at hedge
  refine ((hcaller.toAdds.trans hcallee.toAdds).trans hedge).congr ?_
  ext x
  simp only [Scope.ofCall, Set.mem_union, Set.mem_singleton_iff, Set.mem_ofPred_eq]
  tauto

end Graph

end CallGraphs
