import CallGraphs.Proofs.Merge.Traits
import Mathlib

/-!
# Both ends of an override link

A link between two functions is kept twice, with the overrider and with what it
overrides, and nothing in a graph ties the two sets together.  A merge even
takes them apart for a while: it takes over one function after the other, each
with its own sets, so a link stands at one end before it stands at the other.

Seen as traits, the sets of all functions are one set of links, and whatever a
pass or a unit brings to it has both ends of every link and no function linked
to itself (`Mirrored`).  That survives any union, so it holds of the graph of
every unit and of every merge, and there the override sets are inverse to each
other (`overrides_inverse`).
-/

namespace CallGraphs

/-! ## Links among traits -/

/-- The traits have both ends of every link, and no link of a function to itself. -/
structure Mirrored (T : Set (FunctionKey × Trait)) : Prop where
  ends : ∀ a b, (a, .overrides b) ∈ T ↔ (b, .overriddenBy a) ∈ T
  irrefl : ∀ a, (a, .overrides a) ∉ T

namespace Mirrored

variable {T T' : Set (FunctionKey × Trait)}

theorem union (h : Mirrored T) (h' : Mirrored T') : Mirrored (T ∪ T') where
  ends a b := or_congr (h.ends a b) (h'.ends a b)
  irrefl a hx := hx.elim (h.irrefl a) (h'.irrefl a)

/-- What each element of a list brings may be joined. -/
theorem gathered {α : Type} {l : List α} {S : α → Set (FunctionKey × Trait)}
    (h : ∀ x ∈ l, Mirrored (S x)) : Mirrored {t | ∃ x ∈ l, t ∈ S x} where
  ends a b := exists_congr fun x => and_congr_right fun hx => (h x hx).ends a b
  irrefl := by
    rintro a ⟨x, hx, ha⟩
    exact (h x hx).irrefl a ha

/-- Traits that are no links have nothing to show. -/
theorem of_forall_not (h : ∀ a b, (a, .overrides b) ∉ T ∧ (a, .overriddenBy b) ∉ T) :
    Mirrored T where
  ends a b := iff_of_false (h a b).1 (h b a).2
  irrefl a := (h a a).1

end Mirrored

/-- A record links two different functions, at both ends. -/
theorem DirectCalls.mirrored_ofDeclaredLink (key base : FunctionKey) :
    Mirrored (ofDeclaredLink key base) where
  ends a b := by
    refine and_congr_right fun _ => ?_
    simp only [Prod.mk.injEq, Trait.overrides.injEq, Trait.overriddenBy.injEq, reduceCtorEq,
      and_false, or_false, false_or]
    exact and_comm
  irrefl := by
    rintro a ⟨hne, hx | hx⟩
    · obtain ⟨rfl, hbase⟩ := Prod.mk.inj hx
      exact hne (Trait.overrides.inj hbase)
    · exact absurd (Prod.mk.inj hx).2 (by simp)

theorem DirectCalls.mirrored_marked (u : TranslationUnit) : Mirrored (marked u) := by
  refine Mirrored.union (.of_forall_not fun a b => ⟨?_, ?_⟩)
    (.gathered fun r _ => .gathered fun base _ => mirrored_ofDeclaredLink r.key base)
  · rintro ⟨r, -, -, hsays⟩
    exact hsays
  · rintro ⟨r, -, -, hsays⟩
    exact hsays

/-- An override of the hierarchy brings the same links as one that a record declares; its ends may
be declared by it. -/
theorem Graph.mirrored_ofLink (shown : Set Feature) (overrider base : FunctionKey) :
    Mirrored (ofLink shown overrider base) := by
  have hends : Mirrored
      {x | x.2 = .declared ∧ (x.1 = overrider ∨ x.1 = base) ∧ .node x.1 ∉ shown} :=
    .of_forall_not fun a b =>
      ⟨fun hx => absurd hx.1 (by simp), fun hx => absurd hx.1 (by simp)⟩
  exact (DirectCalls.mirrored_ofDeclaredLink overrider base).union hends

theorem VirtualCalls.mirrored_marked (h : Hierarchy) (shown : Set Feature) :
    Mirrored (marked h shown) := by
  refine Mirrored.union (.of_forall_not fun a b => ⟨?_, ?_⟩)
    (.gathered fun o _ => Graph.mirrored_ofLink shown o.overrider o.base)
  · exact fun hx => absurd hx.1 (by simp)
  · exact fun hx => absurd hx.1 (by simp)

theorem PointerCalls.mirrored_asLambdas (fs : Set FunctionKey) : Mirrored (asLambdas fs) :=
  .of_forall_not fun _ _ => ⟨fun hx => absurd hx.1 (by simp), fun hx => absurd hx.1 (by simp)⟩

/-- What is taken over from a unit has its links at both ends, because only bodies are left out. -/
theorem Merge.mirrored_takenTraits (a : Arbitration) {p : UnitGraph}
    (hp : Mirrored p.graph.traits) : Mirrored (takenTraits a p) where
  ends f base :=
    and_congr (hp.ends f base)
      (iff_of_true (fun h => absurd h (by simp)) fun h => absurd h (by simp))
  irrefl f hx := hp.irrefl f hx.1

/-! ## Links between functions -/

/-- The override sets of the functions of a graph are inverse to each other, over the whole graph,
and no function is in its own. -/
structure Graph.InverseOverrides (g : Graph) : Prop where
  overrides : ∀ a ∈ g.nodes, ∀ key,
    key ∈ a.overrides ↔ ∃ b ∈ g.nodes, b.key = key ∧ a.key ∈ b.overriddenBy
  overriddenBy : ∀ b ∈ g.nodes, ∀ key,
    key ∈ b.overriddenBy ↔ ∃ a ∈ g.nodes, a.key = key ∧ b.key ∈ a.overrides
  irrefl : ∀ f ∈ g.nodes, f.key ∉ f.overrides ∧ f.key ∉ f.overriddenBy

/-- One key has one node, so links between keys are links between functions. -/
theorem Graph.WellFormed.inverseOverrides {g : Graph} (hg : g.WellFormed)
    (h : Mirrored g.traits) : g.InverseOverrides where
  overrides a ha key :=
    (has_iff_mem_traits hg.nodup ha (t := .overrides key)).trans (h.ends a.key key)
  overriddenBy b hb key :=
    (has_iff_mem_traits hg.nodup hb (t := .overriddenBy key)).trans (h.ends key b.key).symm
  irrefl f hf := by
    have hself := h.irrefl f.key
    refine ⟨fun hmem => hself ?_, fun hmem => hself ?_⟩
    · exact (has_iff_mem_traits hg.nodup hf (t := .overrides f.key)).mp hmem
    · exact (h.ends f.key f.key).mpr
        ((has_iff_mem_traits hg.nodup hf (t := .overriddenBy f.key)).mp hmem)

/-! ## Main statement -/

theorem UnitGraph.mirrored_of_analyse {options : Options} {cancelled : Bool} {index : Nat}
    {u : TranslationUnit} {p : UnitGraph} (hok : analyse options cancelled index u = .ok p) :
    Mirrored p.graph.traits := by
  obtain ⟨h, -, hmarked⟩ := marked_of_analyse hok
  rw [hmarked.traits]
  exact (DirectCalls.mirrored_marked u).union
    ((VirtualCalls.mirrored_marked h _).union (PointerCalls.mirrored_asLambdas _))

namespace Merge

variable {digest : String → String}

theorem mirrored_of_run {options : Options} {cancelled : Bool} {parts : List UnitGraph}
    {g : Graph} {stats : MergeStats} (hwell : ∀ p ∈ parts, p.graph.WellFormed)
    (hparts : ∀ p ∈ parts, Mirrored p.graph.traits)
    (hrun : (run digest options cancelled parts).2 = .ok (g, stats)) : Mirrored g.traits := by
  obtain ⟨h, -, hevolves⟩ := evolves_of_run hwell hrun
  rw [hevolves.traits, traits_unionGraph _ (wellFormed_inOrder hwell)]
  refine Mirrored.union (.gathered fun p hp => ?_)
    ((VirtualCalls.mirrored_marked h _).union (PointerCalls.mirrored_asLambdas _))
  exact mirrored_takenTraits _ (hparts p (List.mem_mergeSort.mp hp))

/-- In the graph of every unit and in every merge of such graphs, whatever the options of either and
however the units are numbered, a function overrides another if and only if the other one is
overridden by it, and none overrides itself. -/
theorem overrides_inverse {parts : List UnitGraph}
    (hparts : ∀ p ∈ parts, ∃ options cancelled index u,
      UnitGraph.analyse options cancelled index u = .ok p) :
    (∀ p ∈ parts, p.graph.InverseOverrides) ∧
    ∀ digest options cancelled g stats, (run digest options cancelled parts).2 = .ok (g, stats) →
      g.InverseOverrides := by
  have hwell : ∀ p ∈ parts, p.graph.WellFormed := by
    intro p hp
    obtain ⟨options, cancelled, index, u, hok⟩ := hparts p hp
    exact (UnitGraph.analysed_of_analyse hok).wellFormed
  have hmirrored : ∀ p ∈ parts, Mirrored p.graph.traits := by
    intro p hp
    obtain ⟨options, cancelled, index, u, hok⟩ := hparts p hp
    exact UnitGraph.mirrored_of_analyse hok
  refine ⟨fun p hp => (hwell p hp).inverseOverrides (hmirrored p hp), ?_⟩
  intro digest options cancelled g stats hrun
  exact (wellFormed_of_run hwell hrun).inverseOverrides (mirrored_of_run hwell hmirrored hrun)

/-- A base class in one unit and a derived one in another: the override between their methods shows
only when the classes are put together. -/
def overridersApart : List (Nat × TranslationUnit) :=
  [(0, { name := "above"
         functions := [{ key := "A::f", isVirtual := true }]
         classes := [{ key := "A", methods := [⟨"f", "A::f"⟩] }] }),
    (1, { name := "below"
          functions := [{ key := "B::f" }]
          classes := [{ key := "B", bases := [{ className := "A" }]
                        methods := [⟨"f", "B::f"⟩] }] })]

theorem overridersApart_inverse : ∃ p q g stats,
    UnitGraph.analyseIndexed {} false overridersApart = .ok [p, q] ∧
    (run id {} false [p, q]).2 = .ok (g, stats) ∧
    (∃ f ∈ g.nodes, f.key = "B::f" ∧ "A::f" ∈ f.overrides) ∧
    p.graph.InverseOverrides ∧ q.graph.InverseOverrides ∧ g.InverseOverrides := by
  obtain ⟨p, q, g, stats, hparts, hrun, hlinked⟩ : ∃ p q g stats,
      UnitGraph.analyseIndexed {} false overridersApart = .ok [p, q] ∧
      (run id {} false [p, q]).2 = .ok (g, stats) ∧
      ∃ f ∈ g.nodes, f.key = "B::f" ∧ "A::f" ∈ f.overrides :=
    ⟨_, _, _, _, by cbv, by cbv, by decide⟩
  obtain ⟨hunits, hmerged⟩ := overrides_inverse fun r hr =>
    ⟨_, _, r.index, r.unit, UnitGraph.analyse_of_mem hparts hr⟩
  exact ⟨p, q, g, stats, hparts, hrun, hlinked, hunits p List.mem_cons_self,
    hunits q (List.mem_cons_of_mem _ List.mem_cons_self), hmerged _ _ _ _ _ hrun⟩

end Merge

end CallGraphs
