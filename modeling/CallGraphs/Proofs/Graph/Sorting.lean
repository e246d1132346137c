import CallGraphs.Proofs.Graph.Traits

/-!
# Sorted listings

A graph is listed by its sorted calls and by its functions in the order of their
keys.  The listings do not show in which order functions and edges came in: two
graphs that show the same calls list the same calls (`Graph.sortedCalls_eq`), and
two graphs that moreover know the same of their functions list the same outlines
of them (`Graph.sortedOutlines_eq`).
-/

namespace CallGraphs

/-! ## Orders -/

instance : Std.TransOrd EdgeKind where
  eq_swap {a b} := by cases a <;> cases b <;> rfl
  isLE_trans {a b c} := by cases a <;> cases b <;> cases c <;> decide

instance : Std.LawfulEqOrd EdgeKind where
  eq_of_compare {a b} := by cases a <;> cases b <;> decide

instance : Std.TransOrd Confidence where
  eq_swap {a b} := by cases a <;> cases b <;> rfl
  isLE_trans {a b c} := by cases a <;> cases b <;> cases c <;> decide

instance : Std.LawfulEqOrd Confidence where
  eq_of_compare {a b} := by cases a <;> cases b <;> decide

namespace Call

instance : Std.TransOrd Call :=
  inferInstanceAs <| Std.TransCmp <|
    compareLex (compareOn Call.caller) <|
    compareLex (compareOn Call.callee) <|
    compareLex (compareOn Call.kind) <|
    compareLex (compareOn Call.confidence) (compareOn Call.origin)

instance : Std.LawfulEqOrd Call where
  eq_of_compare {a b} h := by
    obtain ⟨hcaller, h⟩ := compareLex_eq_eq.mp h
    obtain ⟨hcallee, h⟩ := compareLex_eq_eq.mp h
    obtain ⟨hkind, h⟩ := compareLex_eq_eq.mp h
    obtain ⟨hconfidence, horigin⟩ := compareLex_eq_eq.mp h
    obtain ⟨caller, callee, kind, confidence, origin⟩ := a
    obtain rfl : caller = b.caller := Std.LawfulEqOrd.eq_of_compare hcaller
    obtain rfl : callee = b.callee := Std.LawfulEqOrd.eq_of_compare hcallee
    obtain rfl : kind = b.kind := Std.LawfulEqOrd.eq_of_compare hkind
    obtain rfl : confidence = b.confidence := Std.LawfulEqOrd.eq_of_compare hconfidence
    obtain rfl : origin = b.origin := Std.LawfulEqOrd.eq_of_compare horigin
    rfl

end Call

theorem pairwise_mergeSort_compare {α κ : Type} [Ord κ] [Std.TransOrd κ] (key : α → κ)
    (l : List α) : (l.mergeSort fun a b => (compare (key a) (key b)).isLE).Pairwise
      fun a b => (compare (key a) (key b)).isLE = true := by
  refine List.pairwise_mergeSort ?_ ?_ l
  · exact fun _ _ _ => Std.TransOrd.isLE_trans
  intro a b
  rw [Std.OrientedOrd.eq_swap (a := key b)]
  cases compare (key a) (key b) <;> rfl

/-- Sorting by a key forgets the order, if no two elements have the same key. -/
theorem mergeSort_eq_of_perm {α κ : Type} [Ord κ] [Std.TransOrd κ] (key : α → κ) {l l' : List α}
    (hperm : l.Perm l') (hkey : ∀ a ∈ l, ∀ b ∈ l, compare (key a) (key b) = .eq → a = b) :
    l.mergeSort (fun a b => (compare (key a) (key b)).isLE) =
      l'.mergeSort fun a b => (compare (key a) (key b)).isLE := by
  refine List.Perm.eq_of_pairwise ?_ (pairwise_mergeSort_compare key l)
    (pairwise_mergeSort_compare key l')
    ((List.mergeSort_perm l _).trans (hperm.trans (List.mergeSort_perm l' _).symm))
  intro a b ha hb hab hba
  refine hkey a (List.mem_mergeSort.mp ha) b (hperm.mem_iff.mpr (List.mem_mergeSort.mp hb)) ?_
  exact Std.OrientedCmp.isLE_antisymm hab hba

namespace Graph

variable {g g' : Graph}

/-! ## Calls -/

/-- The calls without the units that they come from. -/
def bareCalls (g : Graph) : List Call := g.calls.map fun c => { c with origin := none }

theorem mem_bareCalls {c : Call} : c ∈ g.bareCalls ↔
    c.origin = none ∧ .call c.caller c.callee c.kind c.confidence ∈ g.features := by
  rw [call_mem_features, bareCalls, List.mem_map]
  constructor
  · rintro ⟨d, hd, rfl⟩
    exact ⟨rfl, d, hd, rfl, rfl, rfl, rfl⟩
  · obtain ⟨caller, callee, kind, confidence, origin⟩ := c
    rintro ⟨rfl, d, hd, rfl, rfl, rfl, rfl⟩
    exact ⟨d, hd, rfl⟩

/-- Edges that are distinct by numbers are distinct by keys. -/
theorem nodup_bareCalls (hg : g.WellFormed) (hd : g.DistinctEdges) : g.bareCalls.Nodup := by
  have hkey := keyOf_injOn hg.nodup
  rw [bareCalls, calls, List.map_map]
  refine (List.nodup_map_iff_inj_on hd.of_map).mpr fun e he f hf heq => ?_
  obtain ⟨hcaller, hcallee, hkind, hconfidence, -⟩ := Call.mk.inj heq
  refine List.inj_on_of_nodup_map hd he hf ?_
  obtain ⟨⟨caller, callee, kind, confidence⟩, origin⟩ := e
  obtain rfl := hkey (hg.closed _ he).1 (hg.closed _ hf).1 hcaller
  obtain rfl := hkey (hg.closed _ he).2 (hg.closed _ hf).2 hcallee
  obtain rfl : kind = f.edge.kind := hkind
  obtain rfl : confidence = f.edge.confidence := hconfidence
  rfl

/-- Graphs that show the same list the same calls. -/
theorem sortedCalls_eq (hg : g.WellFormed) (hg' : g'.WellFormed) (hd : g.DistinctEdges)
    (hd' : g'.DistinctEdges) (hfeatures : g.features = g'.features) :
    g.sortedCalls = g'.sortedCalls := by
  refine mergeSort_eq_of_perm id ?_ fun a _ b _ => Std.LawfulEqOrd.eq_of_compare
  refine (List.perm_ext_iff_of_nodup (nodup_bareCalls hg hd) (nodup_bareCalls hg' hd')).mpr ?_
  intro c
  rw [mem_bareCalls, mem_bareCalls, hfeatures]

/-! ## Functions -/

end Graph

/-- A function without its readable name, its signature and the unit that it comes from. -/
def Function.outline (f : Function) : Function :=
  { f with displayName := none, signature := {}, origin := none }

/-- The outline of a function is its key and its traits. -/
theorem Function.outline_eq {f f' : Function} (hkey : f.key = f'.key)
    (htraits : ∀ t, f.Has t ↔ f'.Has t) : f.outline = f'.outline := by
  have hbody : f.hasBody = f'.hasBody := Bool.eq_iff_iff.mpr (htraits .body)
  have hvirtual : f.isVirtual = f'.isVirtual := Bool.eq_iff_iff.mpr (htraits .virtual)
  have hlambda : f.isLambda = f'.isLambda := Bool.eq_iff_iff.mpr (htraits .lambda)
  have hstub : f.stub = f'.stub := by
    have hdeclared : f.stub = false ↔ f'.stub = false := htraits .declared
    cases hs : f.stub with
    | false => exact (hdeclared.mp hs).symm
    | true =>
        cases hs' : f'.stub with
        | true => rfl
        | false => exact absurd (hs.symm.trans (hdeclared.mpr hs')) (by simp)
  have hoverrides : f.overrides = f'.overrides :=
    SortedSet.eq_of_forall_mem_iff fun base => htraits (.overrides base)
  have hoverridden : f.overriddenBy = f'.overriddenBy :=
    SortedSet.eq_of_forall_mem_iff fun other => htraits (.overriddenBy other)
  simp only [outline, hkey, hbody, hvirtual, hlambda, hstub, hoverrides, hoverridden]

namespace Graph

variable {g g' : Graph}

/-- The outlines of the functions, in the order of their keys. -/
def sortedOutlines (g : Graph) : List Function := g.sortedFunctions.map (·.outline)

theorem exists_same_outline (hn : g.keys.Nodup) (hn' : g'.keys.Nodup)
    (hfeatures : g.features = g'.features) (htraits : g.traits = g'.traits) {f : Function}
    (hf : f ∈ g.nodes) : ∃ f' ∈ g'.nodes, f'.outline = f.outline := by
  have hnode : .node f.key ∈ g'.features := hfeatures ▸ List.mem_map_of_mem hf
  obtain ⟨f', hf', hkey⟩ := List.mem_map.mp hnode
  refine ⟨f', hf', Function.outline_eq hkey fun t => ?_⟩
  rw [has_iff_mem_traits hn' hf', has_iff_mem_traits hn hf, hkey, htraits]

theorem nodup_outlines (hn : g.keys.Nodup) : (g.nodes.map (·.outline)).Nodup := by
  have hkeys : (g.nodes.map (·.outline)).map (·.key) = g.keys := by
    rw [List.map_map]
    rfl
  exact (hkeys ▸ hn).of_map

/-- Graphs that show the same and know the same of their functions list the same outlines. -/
theorem sortedOutlines_eq (hn : g.keys.Nodup) (hn' : g'.keys.Nodup)
    (hfeatures : g.features = g'.features) (htraits : g.traits = g'.traits) :
    g.sortedOutlines = g'.sortedOutlines := by
  have hperm : (g.nodes.map (·.outline)).Perm (g'.nodes.map (·.outline)) := by
    refine (List.perm_ext_iff_of_nodup (nodup_outlines hn) (nodup_outlines hn')).mpr fun f => ?_
    rw [List.mem_map, List.mem_map]
    constructor
    · rintro ⟨f, hf, rfl⟩
      exact exists_same_outline hn hn' hfeatures htraits hf
    · rintro ⟨f, hf, rfl⟩
      exact exists_same_outline hn' hn hfeatures.symm htraits.symm hf
  have hsorted : ∀ g : Graph, g.sortedOutlines = (g.nodes.map (·.outline)).mergeSort
      fun a b => (compare a.key b.key).isLE := by
    intro g
    exact List.map_mergeSort fun _ _ _ _ => rfl
  rw [hsorted, hsorted]
  refine mergeSort_eq_of_perm (·.key) hperm ?_
  intro a ha b hb heq
  obtain ⟨f, hf, rfl⟩ := List.mem_map.mp ha
  obtain ⟨f', hf', rfl⟩ := List.mem_map.mp hb
  rw [List.inj_on_of_nodup_map hn hf hf' (Std.LawfulEqOrd.eq_of_compare heq)]

end Graph

end CallGraphs
