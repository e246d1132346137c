import CallGraphs.Proofs.Graph.Features

/-!
# What is known of the functions of a graph

The flags and the override links of the functions of a graph, by keys
(`Graph.traits`).  Like the features of a graph they only grow: flags turn on,
links are added, and a stub is no longer one when a declaration mentions it.
So absorbing a declaration adds the traits of the declaration
(`Graph.traits_addFunction`), in whatever order declarations come.

Apart from declarations, nothing gives a function a body or moves the unit that
its body comes from.  `Evolves g g' T` says that of a graph `g'` that has come
from `g`, with `T` the traits that are new, and that edges stay distinct and no
diagnostic is lost.
-/

namespace CallGraphs

/-- Something that may be known of a function of a graph. -/
inductive Trait where
  | body
  | virtual
  | lambda
  /-- It is no stub. -/
  | declared
  | overrides (base : FunctionKey)
  | overriddenBy (overrider : FunctionKey)
deriving DecidableEq

/-- The function has a trait. -/
def Function.Has (f : Function) : Trait → Prop
  | .body => f.hasBody = true
  | .virtual => f.isVirtual = true
  | .lambda => f.isLambda = true
  | .declared => f.stub = false
  | .overrides base => base ∈ f.overrides
  | .overriddenBy overrider => overrider ∈ f.overriddenBy

theorem Function.has_absorb (f other : Function) (t : Trait) :
    (f.absorb other).Has t ↔ f.Has t ∨ other.Has t := by
  cases t with
  | body | virtual | lambda => simp [Has, absorb]
  | declared => simp only [Has, absorb, Bool.and_eq_false_iff]
  | overrides | overriddenBy => exact SortedSet.mem_union

theorem Function.not_has_stubOf (key : FunctionKey) (t : Trait) :
    ¬ (Function.stubOf key).Has t := by
  cases t with
  | overrides | overriddenBy => exact SortedSet.not_mem_empty _
  | _ => simp [Has, stubOf]

theorem Function.has_declared (key : FunctionKey) (t : Trait) :
    (Function.declared key).Has t ↔ t = .declared := by
  cases t with
  | overrides | overriddenBy => exact iff_of_false (SortedSet.not_mem_empty _) (by simp)
  | _ => simp [Has, Function.declared]

namespace Graph

/-- What is known of the functions of a graph, by keys. -/
def traits (g : Graph) : Set (FunctionKey × Trait) :=
  {x | ∃ f ∈ g.nodes, f.key = x.1 ∧ f.Has x.2}

/-- No edge is recorded twice. -/
def DistinctEdges (g : Graph) : Prop := (g.edges.map (·.edge)).Nodup

variable {g g' g'' : Graph} {T T' : Set (FunctionKey × Trait)}

theorem traits_empty : empty.traits = ∅ := by
  ext x
  simp [traits, empty]

theorem mem_keys_of_mem_traits {x : FunctionKey × Trait} (hx : x ∈ g.traits) : x.1 ∈ g.keys := by
  obtain ⟨f, hf, hkey, -⟩ := hx
  exact hkey ▸ List.mem_map_of_mem hf

/-- One key has one node, so what is known of a key is known of its node. -/
theorem has_iff_mem_traits (hn : g.keys.Nodup) {f : Function} (hf : f ∈ g.nodes) {t : Trait} :
    f.Has t ↔ (f.key, t) ∈ g.traits := by
  refine ⟨fun ht => ⟨f, hf, rfl, ht⟩, ?_⟩
  rintro ⟨f', hf', hkey, ht⟩
  rwa [← List.inj_on_of_nodup_map hn hf' hf hkey]

theorem find?_eq_some_iff (hn : g.keys.Nodup) {key : FunctionKey} {f : Function} :
    g.find? key = some f ↔ f ∈ g.nodes ∧ f.key = key := by
  have found : ∀ {key f}, g.find? key = some f → f ∈ g.nodes ∧ f.key = key := by
    intro key f h
    rw [find?] at h
    have hkey := List.find?_some h
    exact ⟨List.mem_of_find?_eq_some h, by simpa using hkey⟩
  constructor
  · exact found
  · rintro ⟨hf, rfl⟩
    have hsome : (g.find? f.key).isSome = true :=
      List.find?_isSome.mpr ⟨f, hf, beq_self_eq_true f.key⟩
    obtain ⟨f', hf'⟩ := Option.isSome_iff_exists.mp hsome
    obtain ⟨hmem, hkey⟩ := found hf'
    rw [hf', List.inj_on_of_nodup_map hn hmem hf hkey]

theorem mem_nodes_modifyNode {id : NodeId} {change : Function → Function} {f' : Function} :
    f' ∈ (g.modifyNode id change).nodes ↔
      ∃ (i : NodeId) (f : Function), g.nodes[i]? = some f ∧
        f' = if id = i then change f else f := by
  simp only [modifyNode, List.mem_iff_getElem?, List.getElem?_modify]
  refine exists_congr fun i => ?_
  cases g.nodes[i]? with
  | none => simp
  | some f => by_cases hi : id = i <;> simp [hi, eq_comm]

theorem traits_modifyNode {id : NodeId} {f : Function} (hf : g.nodes[id]? = some f)
    {change : Function → Function} (hkey : (change f).key = f.key) {S : Set Trait}
    (hhas : ∀ t, (change f).Has t ↔ f.Has t ∨ t ∈ S) :
    (g.modifyNode id change).traits = g.traits ∪ {x | x.1 = f.key ∧ x.2 ∈ S} := by
  ext ⟨key, t⟩
  constructor
  · rintro ⟨f', hf', rfl, ht⟩
    obtain ⟨i, f₀, hi, rfl⟩ := mem_nodes_modifyNode.mp hf'
    split at ht
    · next heq =>
      subst heq
      obtain rfl := Option.some.inj (hf.symm.trans hi)
      rcases (hhas t).mp ht with ht | ht
      · exact Or.inl ⟨f, List.mem_of_getElem? hi, by simp [hkey], ht⟩
      · exact Or.inr ⟨by simp [hkey], ht⟩
    · next hne => exact Or.inl ⟨f₀, List.mem_of_getElem? hi, by simp [hne], ht⟩
  · rintro (⟨f', hf', rfl, ht⟩ | ⟨rfl, ht⟩)
    · obtain ⟨i, hi⟩ := List.mem_iff_getElem?.mp hf'
      refine ⟨_, mem_nodes_modifyNode.mpr ⟨i, f', hi, rfl⟩, ?_⟩
      split
      · next heq =>
        subst heq
        obtain rfl := Option.some.inj (hf.symm.trans hi)
        exact ⟨hkey, (hhas t).mpr (Or.inl ht)⟩
      · exact ⟨rfl, ht⟩
    · refine ⟨_, mem_nodes_modifyNode.mpr ⟨id, f, hf, rfl⟩, ?_⟩
      rw [if_pos rfl]
      exact ⟨hkey, (hhas t).mpr (Or.inr ht)⟩

theorem traits_append (f : Function) :
    ({ g with nodes := g.nodes ++ [f] } : Graph).traits =
      g.traits ∪ {x | x.1 = f.key ∧ f.Has x.2} := by
  ext x
  constructor
  · rintro ⟨f', hf', hkey, ht⟩
    rcases List.mem_append.mp hf' with hf' | hf'
    · exact Or.inl ⟨f', hf', hkey, ht⟩
    · obtain rfl := List.mem_singleton.mp hf'
      exact Or.inr ⟨hkey.symm, ht⟩
  · rintro (⟨f', hf', hkey, ht⟩ | ⟨hkey, ht⟩)
    · exact ⟨f', List.mem_append_left _ hf', hkey, ht⟩
    · exact ⟨f, List.mem_append_right _ (List.mem_singleton_self f), hkey.symm, ht⟩

theorem exists_getElem?_of_nodeId? {key : FunctionKey} {id : NodeId}
    (hid : g.nodeId? key = some id) : ∃ f, g.nodes[id]? = some f ∧ f.key = key := by
  have hkey := getElem?_of_nodeId? hid
  rwa [keys, List.getElem?_map, Option.map_eq_some_iff] at hkey

/-- A declaration adds its traits, whatever is known already. -/
theorem traits_addFunction (f : Function) :
    (g.addFunction f).1.traits = g.traits ∪ {x | x.1 = f.key ∧ f.Has x.2} := by
  rw [addFunction]
  split
  · next id hid =>
    obtain ⟨f₀, hf₀, hkey⟩ := exists_getElem?_of_nodeId? hid
    rw [traits_modifyNode hf₀ (f₀.key_absorb f) (f₀.has_absorb f), hkey]
    rfl
  · exact traits_append f

theorem distinctEdges_addFunction (hg : g.DistinctEdges) (f : Function) :
    (g.addFunction f).1.DistinctEdges := by
  rw [addFunction]
  split
  · exact hg
  · exact hg

/-! ## Growth -/

/-- The second graph comes from the first one.  The traits are new, no function has got a body, and
bodies have stayed with their units. -/
structure Evolves (g g' : Graph) (T : Set (FunctionKey × Trait)) : Prop where
  traits : g'.traits = g.traits ∪ T
  distinct : g.DistinctEdges → g'.DistinctEdges
  bodies : ∀ f' ∈ g'.nodes, f'.hasBody = true →
    ∃ f ∈ g.nodes, f.key = f'.key ∧ f.hasBody = true ∧ f.origin = f'.origin
  diagnostics : g.diagnostics ⊆ g'.diagnostics

namespace Evolves

theorem refl (g : Graph) : Evolves g g ∅ :=
  ⟨(Set.union_empty _).symm, id, fun f' hf' hbody => ⟨f', hf', rfl, hbody, rfl⟩, fun _ hd => hd⟩

theorem trans (h : Evolves g g' T) (h' : Evolves g' g'' T') : Evolves g g'' (T ∪ T') where
  traits := by rw [h'.traits, h.traits, Set.union_assoc]
  distinct hd := h'.distinct (h.distinct hd)
  bodies f'' hf'' hbody'' := by
    obtain ⟨f', hf', hkey', hbody', horigin'⟩ := h'.bodies f'' hf'' hbody''
    obtain ⟨f, hf, hkey, hbody, horigin⟩ := h.bodies f' hf' hbody'
    exact ⟨f, hf, hkey.trans hkey', hbody, horigin.trans horigin'⟩
  diagnostics _ hd := h'.diagnostics (h.diagnostics hd)

theorem congr (h : Evolves g g' T) (hT : g.traits ∪ T = g.traits ∪ T') : Evolves g g' T' :=
  ⟨h.traits.trans hT, h.distinct, h.bodies, h.diagnostics⟩

/-- A step that brings no trait, after another one. -/
theorem trans_empty (h : Evolves g g' T) (h' : Evolves g' g'' ∅) : Evolves g g'' T :=
  (h.trans h').congr (by rw [Set.union_empty])

/-- A pass over a list brings what each element brings.  The state of the pass holds a graph, of
which something may be known beside. -/
theorem foldl {σ α : Type} (graph : σ → Graph) (I : Graph → Prop) (step : σ → α → σ)
    {T : α → Set (FunctionKey × Trait)} (l : List α) (st : σ)
    (hstep : ∀ st x, x ∈ l → I (graph st) →
      Evolves (graph st) (graph (step st x)) (T x) ∧ I (graph (step st x)))
    (hI : I (graph st)) :
    Evolves (graph st) (graph (l.foldl step st)) {x | ∃ a ∈ l, x ∈ T a} := by
  induction l generalizing st with
  | nil => exact (refl _).congr (by simp)
  | cons a l ih =>
      obtain ⟨hhead, hI'⟩ := hstep st a List.mem_cons_self hI
      have htail := ih _ (fun st x hx => hstep st x (List.mem_cons_of_mem _ hx)) hI'
      refine (hhead.trans htail).congr (congrArg _ ?_)
      ext x
      simp

/-- A pass over a list that brings no trait. -/
theorem foldl_empty {σ α : Type} (graph : σ → Graph) {step : σ → α → σ}
    (hstep : ∀ st x, Evolves (graph st) (graph (step st x)) ∅) (l : List α) (st : σ) :
    Evolves (graph st) (graph (l.foldl step st)) ∅ :=
  (foldl graph (fun _ => True) step l st (fun st x _ _ => ⟨hstep st x, trivial⟩) trivial).congr
    (congrArg _ (by simp))

end Evolves

/-! ## Bodies and their units -/

/-- If a function has a body, it has it from a unit. -/
def BodyFrom (g : Graph) (key : FunctionKey) (origin : Option String) : Prop :=
  ∀ f ∈ g.nodes, f.key = key → f.hasBody = true → f.origin = origin

theorem Evolves.bodyFrom (h : Evolves g g' T) {key : FunctionKey} {origin : Option String}
    (hg : g.BodyFrom key origin) : g'.BodyFrom key origin := by
  intro f' hf' hkey' hbody'
  obtain ⟨f, hf, hkey, hbody, horigin⟩ := h.bodies f' hf' hbody'
  exact horigin ▸ hg f hf (hkey.trans hkey') hbody

/-- A body that comes from the unit, or a declaration of another function, changes nothing. -/
theorem bodyFrom_addFunction {key : FunctionKey} {unit : String}
    (hg : g.BodyFrom key (some unit)) {f : Function}
    (hf : f.key = key → f.hasBody = true → f.origin = some unit) :
    (g.addFunction f).1.BodyFrom key (some unit) := by
  intro f' hf' hkey hbody
  rw [addFunction] at hf'
  split at hf'
  · next id hid =>
    obtain ⟨f₁, hf₁, hsame⟩ := exists_getElem?_of_nodeId? hid
    obtain ⟨i, f₀, hi, rfl⟩ := mem_nodes_modifyNode.mp hf'
    have hmem := List.mem_of_getElem? hi
    by_cases heq : id = i
    · subst heq
      obtain rfl := Option.some.inj (hf₁.symm.trans hi)
      rw [if_pos rfl] at hkey hbody ⊢
      rw [Function.key_absorb] at hkey
      -- the first body decides
      cases hold : f₁.hasBody with
      | true => simpa [Function.absorb, hold] using hg f₁ hmem hkey hold
      | false =>
          have hnew : f.hasBody = true := by simpa [Function.absorb, hold] using hbody
          simp [Function.absorb, hold, hnew, hf (hsame.symm.trans hkey) hnew]
    · rw [if_neg heq] at hkey hbody ⊢
      exact hg f₀ hmem hkey hbody
  · rcases List.mem_append.mp hf' with hf' | hf'
    · exact hg f' hf' hkey hbody
    · rw [List.mem_singleton.mp hf'] at hkey hbody ⊢
      exact hf hkey hbody

/-- A function has a body, and has it from a unit. -/
def BodyAt (g : Graph) (key : FunctionKey) (origin : Option String) : Prop :=
  ∃ f ∈ g.nodes, f.key = key ∧ f.hasBody = true ∧ f.origin = origin

theorem BodyFrom.bodyAt {key : FunctionKey} {origin : Option String}
    (hg : g.BodyFrom key origin) (hbody : (key, .body) ∈ g.traits) : g.BodyAt key origin := by
  obtain ⟨f, hf, hkey, hhas⟩ := hbody
  exact ⟨f, hf, hkey, hhas, hg f hf hkey hhas⟩

theorem BodyAt.bodyFrom {key : FunctionKey} {origin : Option String} (hn : g.keys.Nodup)
    (hg : g.BodyAt key origin) : g.BodyFrom key origin := by
  obtain ⟨f, hf, hkey, -, horigin⟩ := hg
  intro f' hf' hkey' _
  rw [List.inj_on_of_nodup_map hn hf' hf (hkey'.trans hkey.symm), horigin]

theorem Evolves.bodyAt (h : Evolves g g' T) {key : FunctionKey} {origin : Option String}
    (hn : g.keys.Nodup) (hg : g.BodyAt key origin) : g'.BodyAt key origin := by
  refine (h.bodyFrom (hg.bodyFrom hn)).bodyAt ?_
  obtain ⟨f, hf, hkey, hbody, -⟩ := hg
  rw [h.traits]
  exact Or.inl ⟨f, hf, hkey, hbody⟩

/-- Whatever is declared later, a body stays with the unit that it came from first. -/
theorem bodyAt_addFunction {key : FunctionKey} {origin : Option String} (hg : g.BodyAt key origin)
    (f : Function) : (g.addFunction f).1.BodyAt key origin := by
  obtain ⟨f₀, hf₀, hkey, hbody, horigin⟩ := hg
  rw [addFunction]
  split
  · next id hid =>
    obtain ⟨i, hi⟩ := List.mem_iff_getElem?.mp hf₀
    refine ⟨_, mem_nodes_modifyNode.mpr ⟨i, f₀, hi, rfl⟩, ?_⟩
    split
    · exact ⟨hkey, by simp [Function.absorb, hbody], by simp [Function.absorb, hbody, horigin]⟩
    · exact ⟨hkey, hbody, horigin⟩
  · exact ⟨f₀, List.mem_append_left _ hf₀, hkey, hbody, horigin⟩

/-! ## Operations -/

/-- A well-formed graph has these functions. -/
def Covers (keys : List FunctionKey) (g : Graph) : Prop :=
  g.WellFormed ∧ ∀ key ∈ keys, .node key ∈ g.features

theorem Covers.adds {keys : List FunctionKey} {S : Set Feature} (h : Covers keys g)
    (hadds : Adds g g' S) : Covers keys g' :=
  ⟨hadds.wellFormed, fun key hkey => hadds.features ▸ Or.inl (h.2 key hkey)⟩

theorem evolves_modifyNode {id : NodeId} {f : Function} (hf : g.nodes[id]? = some f)
    (change : Function → Function) (hkey : (change f).key = f.key)
    (hbody : (change f).hasBody = f.hasBody)
    (horigin : (change f).hasBody = true → (change f).origin = f.origin) {S : Set Trait}
    (hhas : ∀ t, (change f).Has t ↔ f.Has t ∨ t ∈ S) :
    Evolves g (g.modifyNode id change) {x | x.1 = f.key ∧ x.2 ∈ S} where
  traits := traits_modifyNode hf hkey hhas
  distinct hd := hd
  bodies f' hf' hbody' := by
    obtain ⟨i, f₀, hi, rfl⟩ := mem_nodes_modifyNode.mp hf'
    by_cases heq : id = i
    · subst heq
      obtain rfl := Option.some.inj (hf.symm.trans hi)
      rw [if_pos rfl] at hbody' ⊢
      exact ⟨f, List.mem_of_getElem? hi, hkey.symm, hbody ▸ hbody', (horigin hbody').symm⟩
    · rw [if_neg heq] at hbody' ⊢
      exact ⟨f₀, List.mem_of_getElem? hi, rfl, hbody', rfl⟩
  diagnostics _ hd := hd

theorem evolves_append {f : Function} (hf : f.hasBody = false) :
    Evolves g { g with nodes := g.nodes ++ [f] } {x | x.1 = f.key ∧ f.Has x.2} where
  traits := traits_append f
  distinct hd := hd
  bodies f' hf' hbody := by
    rcases List.mem_append.mp hf' with hf' | hf'
    · exact ⟨f', hf', rfl, hbody, rfl⟩
    · rw [List.mem_singleton.mp hf', hf] at hbody
      exact absurd hbody (by simp)
  diagnostics _ hd := hd

theorem evolves_ensureNode (key : FunctionKey) :
    Evolves g (g.ensureNode key).1 {x | x = (key, .declared) ∧ key ∉ g.keys} := by
  rw [ensureNode]
  split
  · next id hid =>
    have hmem : key ∈ g.keys := List.mem_of_getElem? (getElem?_of_nodeId? hid)
    exact (Evolves.refl g).congr (by simp [hmem])
  · next hnone =>
    have hnew := nodeId?_eq_none_iff.mp hnone
    rw [addFunction, show (Function.declared key).key = key from rfl, hnone]
    refine (evolves_append (g := g) (f := .declared key) rfl).congr (congrArg _ ?_)
    ext ⟨k, t⟩
    simp only [Function.has_declared, Set.mem_ofPred_eq, Prod.mk.injEq, hnew, not_false_eq_true,
      and_true]
    rfl

/-- The traits that an override link brings: the link at both ends, and that an end which was not
there is declared. -/
def ofLink (shown : Set Feature) (overrider base : FunctionKey) : Set (FunctionKey × Trait) :=
  {x | overrider ≠ base ∧ (x = (overrider, .overrides base) ∨ x = (base, .overriddenBy overrider)) ∨
    x.2 = .declared ∧ (x.1 = overrider ∨ x.1 = base) ∧ .node x.1 ∉ shown}

theorem has_insert_overrides (f : Function) (base : FunctionKey) (t : Trait) :
    ({ f with overrides := f.overrides.insert base } : Function).Has t ↔
      f.Has t ∨ t ∈ ({.overrides base} : Set Trait) := by
  cases t <;> simp [Function.Has, or_comm]

theorem has_insert_overriddenBy (f : Function) (overrider : FunctionKey) (t : Trait) :
    ({ f with overriddenBy := f.overriddenBy.insert overrider } : Function).Has t ↔
      f.Has t ∨ t ∈ ({.overriddenBy overrider} : Set Trait) := by
  cases t <;> simp [Function.Has, or_comm]

/-- The ends of a link come into the graph as declarations. -/
theorem evolves_ends (hg : g.WellFormed) (overrider base : FunctionKey) :
    Evolves g ((g.ensureNode overrider).1.ensureNode base).1
      {x | x.2 = .declared ∧ (x.1 = overrider ∨ x.1 = base) ∧ .node x.1 ∉ g.features} := by
  have hkeys : ∀ key, key ∈ (g.ensureNode overrider).1.keys ↔ key ∈ g.keys ∨ key = overrider := by
    intro key
    have hnode := Set.ext_iff.mp (located_ensureNode hg overrider).features (.node key)
    simpa [features, Shows, or_comm] using hnode
  have hshown : ∀ key, .node key ∈ g.features ↔ key ∈ g.keys := fun _ => Iff.rfl
  refine ((evolves_ensureNode overrider).trans (evolves_ensureNode base)).congr (congrArg _ ?_)
  ext ⟨key, t⟩
  simp only [Set.mem_union, Set.mem_ofPred_eq, hkeys, hshown, Prod.mk.injEq]
  constructor
  · rintro (⟨⟨rfl, rfl⟩, hnew⟩ | ⟨⟨rfl, rfl⟩, hnew⟩)
    · exact ⟨rfl, Or.inl rfl, hnew⟩
    · exact ⟨rfl, Or.inr rfl, fun hmem => hnew (Or.inl hmem)⟩
  · rintro ⟨rfl, rfl | rfl, hnew⟩
    · exact Or.inl ⟨⟨rfl, rfl⟩, hnew⟩
    · by_cases heq : key = overrider
      · exact Or.inl ⟨⟨heq, rfl⟩, heq ▸ hnew⟩
      · exact Or.inr ⟨⟨rfl, rfl⟩, not_or.mpr ⟨hnew, heq⟩⟩

theorem evolves_linkOverride (hg : g.WellFormed) (overrider base : FunctionKey) :
    Evolves g (g.linkOverride overrider base) (ofLink g.features overrider base) := by
  simp only [linkOverride]
  have habove := located_ensureNode hg overrider
  have hbelow := located_ensureNode habove.wellFormed base
  have hends := evolves_ends hg overrider base
  generalize (g.ensureNode overrider).1 = g₁ at *
  generalize (g.ensureNode overrider).2 = above at *
  generalize (g₁.ensureNode base).1 = g₂ at *
  generalize (g₁.ensureNode base).2 = below at *
  have hid := nodeId?_of_isPrefix hbelow.keys habove.nodeId?
  split
  · next heq =>
    -- one node has one key
    have hsame : overrider = base := by
      rw [← keyOf_of_nodeId? hid, ← keyOf_of_nodeId? hbelow.nodeId?, heq]
    refine hends.congr (congrArg _ ?_)
    ext x
    simp [ofLink, hsame]
  · next hne =>
    have hdiffer : overrider ≠ base := by
      rintro rfl
      exact hne (Option.some.inj (hid.symm.trans hbelow.nodeId?))
    obtain ⟨f, hf, rfl⟩ := exists_getElem?_of_nodeId? hid
    obtain ⟨f', hf', rfl⟩ := exists_getElem?_of_nodeId? hbelow.nodeId?
    have hfirst := evolves_modifyNode hf
      (fun f => { f with overrides := f.overrides.insert f'.key }) rfl rfl (fun _ => rfl)
      (has_insert_overrides f f'.key)
    have hstill : (g₂.modifyNode above fun f =>
        { f with overrides := f.overrides.insert f'.key }).nodes[below]? = some f' := by
      simp [modifyNode, hne, hf']
    have hsecond := evolves_modifyNode hstill
      (fun f' => { f' with overriddenBy := f'.overriddenBy.insert f.key }) rfl rfl
      (fun _ => rfl) (has_insert_overriddenBy f' f.key)
    refine ((hends.trans hfirst).trans hsecond).congr (congrArg _ ?_)
    ext x
    simp only [ofLink, Set.mem_union, Set.mem_ofPred_eq, Set.mem_singleton_iff, Prod.ext_iff]
    tauto

theorem evolves_addDiagnostic (d : Diagnostic) : Evolves g (g.addDiagnostic d) ∅ := by
  rw [addDiagnostic]
  split
  · exact .refl g
  · exact ⟨(Set.union_empty _).symm, id, fun f' hf' hbody => ⟨f', hf', rfl, hbody, rfl⟩,
      fun _ hd => List.mem_append_left _ hd⟩

theorem evolves_insertEdge (e : Edge) (origin : Option String) :
    Evolves g (g.insertEdge e origin).1 ∅ := by
  rw [insertEdge]
  split
  · next hnew =>
    refine ⟨(Set.union_empty _).symm, fun hd => ?_, fun f' hf' hbody => ⟨f', hf', rfl, hbody, rfl⟩,
      fun _ hd => hd⟩
    have hfresh : e ∉ g.edges.map (·.edge) := by
      simp only [Bool.and_eq_true, Bool.not_eq_true', containsEdge, List.any_eq_false,
        decide_eq_true_eq] at hnew
      simpa using hnew.2
    rw [DistinctEdges, List.map_append]
    exact List.nodup_append_comm.mp (List.nodup_cons.mpr ⟨hfresh, hd⟩)
  · exact .refl g

theorem ensureNode_of_mem {key : FunctionKey} (hkey : .node key ∈ g.features) :
    (g.ensureNode key).1 = g := by
  obtain ⟨id, hid⟩ := node_mem_features.mp hkey
  rw [ensureNode, hid]

/-- A call between functions of the graph brings no trait. -/
theorem evolves_addCall {c : Call} (hcaller : .node c.caller ∈ g.features)
    (hcallee : .node c.callee ∈ g.features) : Evolves g (g.addCall c) ∅ := by
  simp only [addCall, ensureNode_of_mem hcaller, ensureNode_of_mem hcallee]
  exact evolves_insertEdge _ _

theorem evolves_markLambda {key : FunctionKey} {id : NodeId} (hid : g.nodeId? key = some id) :
    Evolves g (g.modifyNode id fun f => { f with isLambda := true }) {(key, .lambda)} := by
  obtain ⟨f, hf, rfl⟩ := exists_getElem?_of_nodeId? hid
  refine (evolves_modifyNode hf (fun f => { f with isLambda := true }) rfl rfl (fun _ => rfl)
    (S := {.lambda}) fun t => by cases t <;> simp [Function.Has]).congr (congrArg _ ?_)
  ext x
  simp [Prod.ext_iff]

end Graph

/-! ## Facts in a scope -/

namespace Scope

open CallGraphs.Graph

variable (s : Scope) (g : Graph)

theorem evolves_malformed (detail : String) : Evolves g (s.malformed g detail) ∅ := by
  rw [malformed]
  split
  · exact .refl g
  · exact evolves_addDiagnostic _

@[simp]
theorem nodes_malformed (detail : String) : (s.malformed g detail).nodes = g.nodes := by
  rw [malformed]
  split
  · rfl
  · rw [addDiagnostic]
    split <;> rfl

/-- A function that no declaration mentions comes in without traits. -/
theorem evolves_reference (key : FunctionKey) (what : String) :
    Evolves g (s.reference g key what).1 ∅ := by
  rw [reference, ensureStub]
  cases hid : g.nodeId? key with
  | some id => exact .refl g
  | none =>
      have hnew : g.addFunction (.stubOf key) =
          ({ g with nodes := g.nodes ++ [.stubOf key] }, g.size) := by
        rw [addFunction, show (Function.stubOf key).key = key from rfl, hid]
      have hstub : Evolves g { g with nodes := g.nodes ++ [.stubOf key] } ∅ :=
        (evolves_append rfl).congr (congrArg _ (by simp [Function.not_has_stubOf]))
      have hreported := hstub.trans_empty
        (s.evolves_malformed _ (what ++ " references unknown symbol " ++ key))
      simp only [hnew]
      split
      · exact hreported
      · -- the mark of the unit is no trait, and there is no body yet
        refine hreported.trans_empty ((evolves_modifyNode (f := .stubOf key) (S := ∅) ?_
          (fun f => { f with origin := some s.unit }) rfl rfl (by simp [Function.stubOf]) ?_).congr
          (by simp))
        · simp [size]
        · intro t
          cases t <;> simp [Function.Has]

theorem nodeId?_reference (key : FunctionKey) (what : String) :
    (s.reference g key what).1.nodeId? key = some (s.reference g key what).2 := by
  rw [reference, ensureStub]
  cases hid : g.nodeId? key with
  | some id => exact hid
  | none =>
      have hnew := nodeId?_append (g := g) (f := .stubOf key) (nodeId?_eq_none_iff.mp hid)
      simp only [addFunction, show (Function.stubOf key).key = key from rfl, hid]
      split
      · rwa [nodeId?, nodes_malformed]
      · rw [nodeId?_eq, keys_modifyNode, ← nodeId?_eq]
        · rwa [nodeId?, nodes_malformed]
        · exact fun _ => rfl

theorem evolves_call (caller callee : FunctionKey) (kind : EdgeKind) (confidence : Confidence) :
    Evolves g (s.call g caller callee kind confidence).1 ∅ := by
  simp only [call]
  exact ((s.evolves_reference g _ _).trans_empty (s.evolves_reference _ _ _)).trans_empty
    (evolves_insertEdge _ _)

theorem evolves_callAll (caller : FunctionKey) (callees : List FunctionKey) (kind : EdgeKind)
    (confidence : Confidence) : Evolves g (s.callAll g caller callees kind confidence).1 ∅ := by
  refine Evolves.foldl_empty Prod.fst (fun st callee => ?_) callees (g, 0)
  have hcall := s.evolves_call st.1 caller callee kind confidence
  rcases hres : s.call st.1 caller callee kind confidence with ⟨g', isNew⟩
  rw [hres] at hcall
  cases isNew <;> simpa only [hres] using hcall

end Scope

end CallGraphs
