import CallGraphs.Formats.Listing
import CallGraphs.Proofs.Graph.Building
import CallGraphs.Proofs.Graph.Encoding
import CallGraphs.Proofs.Graph.Reachable
import CallGraphs.Proofs.Graph.Sorting
import Mathlib

/-!
# Listings tell graphs apart, and nothing more

Two graphs agree if they have the same functions, calls and diagnostics, whatever
their numbers and the order in which they came (`Graph.Agrees`).  Keys, edges and
diagnostics are there once, so graphs agree exactly if they are rearrangements of
each other (`Graph.agrees_iff_perm`), and sorting removes just the arrangement
(`Listing.ofGraph_eq_iff`).  The graph of a listing has what is listed
(`Listing.Regular.toGraph_eq`), and a listing is read back from its record
(`Listing.ofJson?_toJson`).
-/

namespace CallGraphs

open CallGraphs.Graph

/-! ## The order of diagnostics -/

namespace Diagnostic

instance : Std.TransOrd Diagnostic :=
  inferInstanceAs <| Std.TransCmp <|
    compareLex (compareOn (fun d : Diagnostic => d.finding.rank)) <|
    compareLex (compareOn (fun d : Diagnostic => d.finding.parts)) (compareOn Diagnostic.unit)

theorem reason_eq_of_text_eq {a b : UnresolvedReason} (h : a.text = b.text) : a = b := by
  cases a with
  | emptyAliasSet =>
      cases b with
      | emptyAliasSet => rfl
      | returnValue => exact absurd h (by decide)
  | returnValue =>
      cases b with
      | emptyAliasSet => exact absurd h (by decide)
      | returnValue => rfl

/-- Findings of one kind are told apart by their texts. -/
theorem finding_eq {a b : Finding} (hrank : a.rank = b.rank) (hparts : a.parts = b.parts) :
    a = b := by
  cases a with
  | malformedFact detail =>
      cases b with
      | malformedFact detail' => simpa [Finding.parts] using hparts
      | unresolvedCall caller slot reason => cases hrank
      | odrConflict function kept dropped => cases hrank
  | unresolvedCall caller slot reason =>
      cases b with
      | malformedFact detail => cases hrank
      | unresolvedCall caller' slot' reason' =>
          simp only [Finding.parts, List.cons.injEq, and_true] at hparts
          obtain ⟨rfl, rfl, hreason⟩ := hparts
          rw [reason_eq_of_text_eq hreason]
      | odrConflict function kept dropped => cases hrank
  | odrConflict function kept dropped =>
      cases b with
      | malformedFact detail => cases hrank
      | unresolvedCall caller slot reason => cases hrank
      | odrConflict function' kept' dropped' => simpa [Finding.parts] using hparts

instance : Std.LawfulEqOrd Diagnostic where
  eq_of_compare {a b} h := by
    obtain ⟨hrank, h⟩ := compareLex_eq_eq.mp h
    obtain ⟨hparts, hunit⟩ := compareLex_eq_eq.mp h
    obtain ⟨finding, unit⟩ := a
    obtain rfl : finding = b.finding :=
      finding_eq (Std.LawfulEqOrd.eq_of_compare hrank) (Std.LawfulEqOrd.eq_of_compare hparts)
    obtain rfl : unit = b.unit := Std.LawfulEqOrd.eq_of_compare hunit
    rfl

end Diagnostic

/-! ## Graphs that agree -/

namespace Graph

/-- Two graphs have the same functions by key, the same calls and the same diagnostics. -/
structure Agrees (g g' : Graph) : Prop where
  functions : ∀ key, g.find? key = g'.find? key
  calls : ∀ c, c ∈ g.calls ↔ c ∈ g'.calls
  diagnostics : ∀ d, d ∈ g.diagnostics ↔ d ∈ g'.diagnostics

variable {g g' : Graph}

theorem nodup_calls (hg : g.Regular) : g.calls.Nodup :=
  (nodup_bareCalls hg.toWellFormed hg.distinct).of_map

/-- Graphs that agree differ in the arrangement of what they have. -/
theorem agrees_iff_perm (hg : g.Regular) (hg' : g'.Regular) : g.Agrees g' ↔
    g.nodes.Perm g'.nodes ∧ g.calls.Perm g'.calls ∧ g.diagnostics.Perm g'.diagnostics := by
  rw [List.perm_ext_iff_of_nodup hg.nodup.of_map hg'.nodup.of_map,
    List.perm_ext_iff_of_nodup (nodup_calls hg) (nodup_calls hg'),
    List.perm_ext_iff_of_nodup hg.noted hg'.noted]
  constructor
  · intro h
    refine ⟨fun f => ?_, h.calls, h.diagnostics⟩
    have hfind : g.find? f.key = some f ↔ g'.find? f.key = some f := by rw [h.functions]
    rwa [find?_eq_some_iff hg.nodup, find?_eq_some_iff hg'.nodup, and_iff_left rfl,
      and_iff_left rfl] at hfind
  · rintro ⟨hnodes, hcalls, hdiagnostics⟩
    refine ⟨fun key => Option.ext fun f => ?_, hcalls, hdiagnostics⟩
    rw [find?_eq_some_iff hg.nodup, find?_eq_some_iff hg'.nodup, hnodes]

end Graph

/-! ## Listings of graphs -/

theorem Listing.ofGraph_eq_iff {g g' : Graph} (hg : g.Regular) (hg' : g'.Regular) :
    Listing.ofGraph g = Listing.ofGraph g' ↔ g.Agrees g' := by
  rw [agrees_iff_perm hg hg']
  constructor
  · intro h
    obtain ⟨hfunctions, hcalls, hdiagnostics⟩ := Listing.mk.inj h
    have same {α : Type} {le : α → α → Bool} {l l' : List α}
        (heq : l.mergeSort le = l'.mergeSort le) : l.Perm l' :=
      (List.mergeSort_perm l le).symm.trans (heq ▸ List.mergeSort_perm l' le)
    exact ⟨same hfunctions, same hcalls, same hdiagnostics⟩
  · rintro ⟨hnodes, hcalls, hdiagnostics⟩
    have hsorted : g.sortedFunctions = g'.sortedFunctions :=
      mergeSort_eq_of_perm (fun f : Function => f.key) hnodes fun a ha b hb heq =>
        List.inj_on_of_nodup_map hg.nodup ha hb (Std.LawfulEqOrd.eq_of_compare heq)
    rw [ofGraph, ofGraph, hsorted]
    congr 1
    · exact mergeSort_eq_of_perm id hcalls fun a _ b _ => Std.LawfulEqOrd.eq_of_compare
    · exact mergeSort_eq_of_perm id hdiagnostics fun a _ b _ => Std.LawfulEqOrd.eq_of_compare

/-! ## Graphs of listings -/

namespace Graph

/-- The edge of a call, with the numbers that a graph has for its ends. -/
def edgeOf (g : Graph) (c : Call) : SourcedEdge where
  edge := ⟨(g.nodeId? c.caller).getD 0, (g.nodeId? c.callee).getD 0, c.kind, c.confidence⟩
  origin := c.origin

variable {g : Graph} {c d : Call}

theorem callOf_edgeOf (hcaller : c.caller ∈ g.keys) (hcallee : c.callee ∈ g.keys) :
    g.callOf (g.edgeOf c) = c := by
  obtain ⟨source, hsource⟩ := node_mem_features.mp hcaller
  obtain ⟨target, htarget⟩ := node_mem_features.mp hcallee
  simp [callOf, edgeOf, hsource, htarget, keyOf_of_nodeId? hsource, keyOf_of_nodeId? htarget]

theorem edgeOf_lt (hcaller : c.caller ∈ g.keys) (hcallee : c.callee ∈ g.keys) :
    (g.edgeOf c).edge.caller < g.size ∧ (g.edgeOf c).edge.callee < g.size := by
  obtain ⟨source, hsource⟩ := node_mem_features.mp hcaller
  obtain ⟨target, htarget⟩ := node_mem_features.mp hcallee
  simp [edgeOf, hsource, htarget, lt_size_of_nodeId? hsource, lt_size_of_nodeId? htarget]

/-- Different calls are different edges. -/
theorem nodup_edgeOf {calls : List Call}
    (hends : ∀ c ∈ calls, c.caller ∈ g.keys ∧ c.callee ∈ g.keys)
    (hdistinct : calls.Pairwise fun a b => a.sameEdge b = false) :
    ((calls.map g.edgeOf).map (·.edge)).Nodup := by
  rw [List.map_map]
  refine List.pairwise_map.mpr (hdistinct.imp_of_mem ?_)
  intro a b ha hb hne heq
  have hsame : (g.callOf (g.edgeOf a)).sameEdge (g.callOf (g.edgeOf b)) = true := by
    have heq : (g.edgeOf a).edge = (g.edgeOf b).edge := heq
    simp [Call.sameEdge, callOf, heq]
  rw [callOf_edgeOf (hends a ha).1 (hends a ha).2, callOf_edgeOf (hends b hb).1 (hends b hb).2,
    hne] at hsame
  cases hsame

end Graph

namespace Listing

/-- A listing has each function, call and diagnostic once, and the functions that its calls name. -/
structure Regular (l : Listing) : Prop where
  keys : (l.functions.map (·.key)).Nodup
  ends : ∀ c ∈ l.calls,
    c.caller ∈ l.functions.map (·.key) ∧ c.callee ∈ l.functions.map (·.key)
  distinct : l.calls.Pairwise fun a b => a.sameEdge b = false
  noted : l.diagnostics.Nodup

/-- The functions of a listing, as a graph without edges. -/
def nodesOnly (l : Listing) : Graph := { nodes := l.functions }

variable {l : Listing}

theorem Regular.map_callOf_edgeOf (hl : l.Regular) :
    (l.calls.map l.nodesOnly.edgeOf).map l.nodesOnly.callOf = l.calls := by
  rw [List.map_map]
  refine (List.map_congr_left fun c hc => ?_).trans (List.map_id l.calls)
  exact callOf_edgeOf (hl.ends c hc).1 (hl.ends c hc).2

/-- The graph of a listing has the functions at their places in the list. -/
theorem Regular.toGraph_eq (hl : l.Regular) : l.toGraph =
    { nodes := l.functions
      edges := l.calls.map l.nodesOnly.edgeOf
      diagnostics := l.diagnostics } := by
  have hwell : l.nodesOnly.WellFormed := ⟨hl.keys, fun _ he => absurd he List.not_mem_nil⟩
  have hclosed : ∀ e ∈ l.calls.map l.nodesOnly.edgeOf,
      e.edge.caller < l.nodesOnly.size ∧ e.edge.callee < l.nodesOnly.size := by
    intro e he
    obtain ⟨c, hc, rfl⟩ := List.mem_map.mp he
    exact edgeOf_lt (hl.ends c hc).1 (hl.ends c hc).2
  have hnodes := foldl_addFunction l.functions empty (by simpa [Graph.keys, empty] using hl.keys)
  have hedges := foldl_addCall hwell (l.calls.map l.nodesOnly.edgeOf) l.nodesOnly rfl hclosed
    (by simpa [nodesOnly] using nodup_edgeOf hl.ends hl.distinct)
  have hdiagnostics := foldl_addDiagnostic l.diagnostics
    { nodes := l.functions, edges := l.calls.map l.nodesOnly.edgeOf } (by simpa using hl.noted)
  rw [hl.map_callOf_edgeOf] at hedges
  rw [toGraph, build, hnodes]
  simp only [empty, nodesOnly, List.nil_append] at *
  rw [hedges, hdiagnostics]

theorem Regular.calls_toGraph (hl : l.Regular) : l.toGraph.calls = l.calls := by
  rw [hl.toGraph_eq]
  exact hl.map_callOf_edgeOf

theorem Regular.regular_toGraph (hl : l.Regular) : l.toGraph.Regular := by
  rw [hl.toGraph_eq]
  refine ⟨⟨hl.keys, ?_⟩, nodup_edgeOf hl.ends hl.distinct, hl.noted⟩
  intro e he
  obtain ⟨c, hc, rfl⟩ := List.mem_map.mp he
  exact edgeOf_lt (hl.ends c hc).1 (hl.ends c hc).2

theorem regular_ofGraph {g : Graph} (hg : g.Regular) : (ofGraph g).Regular := by
  have hfunctions := List.mergeSort_perm g.nodes fun a b => (compare a.key b.key).isLE
  have hcalls := List.mergeSort_perm g.calls fun a b => (compare a b).isLE
  have hdiagnostics := List.mergeSort_perm g.diagnostics fun a b => (compare a b).isLE
  have hkeys := hfunctions.map (·.key)
  refine ⟨hkeys.nodup_iff.mpr hg.nodup, ?_, ?_, hdiagnostics.nodup_iff.mpr hg.noted⟩
  · intro c hc
    obtain ⟨hcaller, hcallee⟩ := hg.toWellFormed.ends (hcalls.mem_iff.mp hc)
    exact ⟨hkeys.mem_iff.mpr hcaller, hkeys.mem_iff.mpr hcallee⟩
  · refine (hcalls.pairwise_iff fun {a b} h => ?_).mpr (pairwise_sameEdge hg)
    rw [← h]
    simp only [Call.sameEdge, eq_comm]

/-- A listing is made into a graph that agrees with the one it was made from. -/
theorem agrees_toGraph_ofGraph {g : Graph} (hg : g.Regular) : (ofGraph g).toGraph.Agrees g := by
  have hl := regular_ofGraph hg
  refine (agrees_iff_perm hl.regular_toGraph hg).mpr ?_
  rw [hl.calls_toGraph, hl.toGraph_eq]
  exact ⟨List.mergeSort_perm _ _, List.mergeSort_perm _ _, List.mergeSort_perm _ _⟩

end Listing

/-! ## Records -/

theorem Listing.ofJson?_toJson (l : Listing) : ofJson? l.toJson = some l := by
  have hfunctions := Json.asList?_list fun f (_ : f ∈ l.functions) => f.ofJson?_toJson
  have hcalls := Json.asList?_list fun c (_ : c ∈ l.calls) => c.ofJson?_toJson
  have hdiagnostics := Json.asList?_list fun d (_ : d ∈ l.diagnostics) => d.ofJson?_toJson
  simp [ofJson?, toJson, hfunctions, hcalls, hdiagnostics]

/-! ## Main statement -/

/-- Listings are equal exactly if the graphs agree, so a listing shows all that a graph holds and
nothing of how it came about.  A graph that is made from a listing agrees with the one that was
listed and has the same listing, and a listing survives being written as a record. -/
theorem listing_lossless {g g' : Graph} (hg : g.Reachable) (hg' : g'.Reachable) :
    (Listing.ofGraph g = Listing.ofGraph g' ↔ g.Agrees g') ∧
    (Listing.ofGraph g).toGraph.Agrees g ∧
    Listing.ofGraph (Listing.ofGraph g).toGraph = Listing.ofGraph g ∧
    Listing.ofJson? (Listing.ofGraph g).toJson = some (Listing.ofGraph g) := by
  have hregular := hg.regular
  have hagrees := Listing.agrees_toGraph_ofGraph hregular
  refine ⟨Listing.ofGraph_eq_iff hregular hg'.regular, hagrees, ?_, Listing.ofJson?_toJson _⟩
  exact (Listing.ofGraph_eq_iff (Listing.regular_ofGraph hregular).regular_toGraph hregular).mpr
    hagrees

/-- A graph with a readable name, an override, an edge and a diagnostic. -/
def calleeLast : Graph :=
  ((((Graph.empty.addFunction
    { key := "main", displayName := some "main()", hasBody := true }).1.linkOverride
      "B::f" "A::f").insertEdge ⟨0, 1, .virtual, .may⟩ (some "a")).1.addDiagnostic
        ⟨.unresolvedCall "main" "global hook" .emptyAliasSet, none⟩)

/-- The same graph, built from its other end. -/
def calleeFirst : Graph :=
  (((Graph.empty.linkOverride "B::f" "A::f").addDiagnostic
    ⟨.unresolvedCall "main" "global hook" .emptyAliasSet, none⟩).addFunction
      { key := "main", displayName := some "main()", hasBody := true }).1.insertEdge
        ⟨2, 0, .virtual, .may⟩ (some "a") |>.1

theorem calleeLast_listed : calleeLast ≠ calleeFirst ∧
    Listing.ofGraph calleeLast = Listing.ofGraph calleeFirst ∧ calleeLast.Agrees calleeFirst ∧
    Listing.ofGraph (Listing.ofGraph calleeLast).toGraph = Listing.ofGraph calleeLast ∧
    Listing.ofJson? (Listing.ofGraph calleeLast).toJson = some (Listing.ofGraph calleeLast) := by
  have hlast : calleeLast.Reachable :=
    .tail (.tail (.tail (.tail .refl (.addFunction _ _)) (.linkOverride _ _ _))
      (.insertEdge _ _ _ (by decide))) (.addDiagnostic _ _)
  have hfirst : calleeFirst.Reachable :=
    .tail (.tail (.tail (.tail .refl (.linkOverride _ _ _)) (.addDiagnostic _ _))
      (.addFunction _ _)) (.insertEdge _ _ _ (by decide))
  have hsame : Listing.ofGraph calleeLast = Listing.ofGraph calleeFirst := by cbv
  obtain ⟨hiff, -, hagain, hread⟩ := listing_lossless hlast hfirst
  exact ⟨by decide, hsame, hiff.mp hsame, hagain, hread⟩

end CallGraphs
