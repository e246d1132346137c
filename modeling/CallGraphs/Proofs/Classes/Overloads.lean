import CallGraphs.Proofs.Classes.Parts

/-!
# Several methods of one name

A class may list several functions under one name, as overloads or because
several units show different parts of it.  A lookup goes by names and finds the
first of them only (`ClassRecord.exists_method?`), but override links go by functions and
all methods take part in them.

So a call through the class certainly goes to the first method of the name, and
to another one only if that overrides the first.  Of the methods that classes
below list under the name, all are candidates if the first one is virtual, and
none otherwise (`Hierarchy.ownMethod_candidate_iff`).  An overload that overrides
nothing of its own class is a candidate of calls through a base, but of no call
through its class (`Hierarchy.secondOverload_not_candidate`).
-/

namespace CallGraphs

open Relation

/-! ## The first method of a name -/

/-- A class that lists a function under a name answers with the first such function. -/
theorem ClassRecord.exists_method? {c : ClassRecord} {name : String} {f : FunctionKey}
    (hf : ⟨name, f⟩ ∈ c.methods) : ∃ g, c.method? name = some g := by
  obtain ⟨m, hm⟩ : ∃ m, c.methods.find? (·.name = name) = some m :=
    Option.isSome_iff_exists.mp (List.find?_isSome.mpr ⟨_, hf, by simp⟩)
  exact ⟨m.function, by rw [method?, hm, Option.map_some]⟩

theorem ClassTable.declaredIn?_of_method? {t : ClassTable} {key name : String} {c : ClassRecord}
    {g : FunctionKey} (hc : t.class? key = some c) (hname : name ≠ destructorName)
    (hg : c.method? name = some g) : t.declaredIn? key name = some g :=
  declaredIn?_eq_some.mpr ⟨c, hc, by rw [ClassRecord.declares?, if_neg hname, hg]⟩

theorem ClassRecord.mem_declarations_of_mem_methods {c : ClassRecord} {name : String}
    {f : FunctionKey} (hf : ⟨name, f⟩ ∈ c.methods) : (name, f) ∈ c.declarations :=
  mem_declarations.mpr (Or.inl ⟨⟨name, f⟩, hf, rfl, rfl⟩)

namespace Hierarchy

/-! ## Candidates of a class that declares the name -/

/-- The candidates of a call through a class that declares the name itself. -/
theorem Dispatched.mem_targets_iff_of_declares {h : Hierarchy} {receiver method : String}
    {d : Dispatch} (hd : h.Dispatched receiver method d) {f g : FunctionKey}
    (hg : h.declaredIn? receiver method = some g) : f ∈ d.targets ↔ f = g ∨
      g ∈ h.virtuals ∧ TransGen h.Overrides f g ∧
        h.ownedWithin (h.derivedClosure receiver) f = true := by
  simp only [hd.mem_targets, ClassTable.finds_iff_of_declares hg, exists_eq_left]

theorem LinksVirtual.mem_virtuals_of_transGen {h : Hierarchy} (hl : h.LinksVirtual)
    {f g : FunctionKey} (hfg : TransGen h.Overrides f g) : g ∈ h.virtuals := by
  obtain ⟨e, -, hover⟩ := TransGen.tail'_iff.mp hfg
  exact (hl _ hover).2

namespace Built

variable {classes : List ClassRecord} {functions : List FunctionRecord} {order : List String}
  {h : Hierarchy} {receiver name : String} {d : Dispatch} {f g : FunctionKey}

/-- A member of a class is a candidate of the calls through it if it is the declaration that the
class answers with, or overrides that. -/
theorem mem_targets_iff_of_member (hb : Built classes functions order h) (hown : h.OwnedOnce)
    (hd : h.Dispatched receiver name d) (hg : h.declaredIn? receiver name = some g)
    {c : ClassRecord} (hc : h.class? receiver = some c) (hf : f ∈ c.members) :
    f ∈ d.targets ↔ f = g ∨ f ∈ h.overriders g := by
  rw [hd.mem_targets_iff_of_declares hg, mem_overriders_iff]
  refine or_congr_right ⟨fun hover => hover.2.1, fun hover => ?_⟩
  exact ⟨hb.linksVirtual.mem_virtuals_of_transGen hover, hover,
    hb.ownedWithin_of_mem hown hd.known .refl hc hf⟩

/-- What a class below declares under the name is a candidate exactly if the declaration that the
static class answers with is virtual. -/
theorem mem_targets_iff_of_below (hb : Built classes functions order h) (hown : h.OwnedOnce)
    (hd : h.Dispatched receiver name d) (hg : h.declaredIn? receiver name = some g)
    {below : String} (hbelow : h.DerivesFrom below receiver) {c : ClassRecord}
    (hc : h.class? below = some c) (hf : (name, f) ∈ c.declarations) :
    f ∈ d.targets ↔ h.isVirtual g = true := by
  have hfinds : h.Finds name receiver g := .here hg
  rw [hd.mem_targets_iff_of_declares hg, isVirtual_iff]
  constructor
  · rintro (hsame | ⟨hv, -⟩)
    · exact absurd hsame (hb.ne_of_declared_below hown hfinds hbelow hc hf)
    · exact hv
  · intro hv
    exact Or.inr ⟨hv, hb.transGen_overrides hown hfinds hv hbelow hc hf,
      hb.ownedWithin_of_mem hown hd.known hbelow.to_reflTransGen hc
        (ClassRecord.mem_members_of_mem_declarations hf)⟩

end Built

/-! ## Main statement -/

/-- A method is a candidate of a call of its name, and so are the functions that records declare to
override it and that classes below list under the name. -/
structure CandidateBelow (h : Hierarchy) (functions : List FunctionRecord)
    (receiver name : String) (f : FunctionKey) (d : Dispatch) : Prop where
  own : f ∈ d.targets
  overriders : h.isVirtual f = true → ∀ below c f', h.DerivesFrom below receiver →
    h.class? below = some c → ⟨name, f'⟩ ∈ c.methods → ⟨f', f⟩ ∈ declaredOverrides functions →
    f' ∈ d.targets

/-- A call through a class that lists methods of the name is dispatched, to the first of them and to
what overrides it at or below the class.  Where every member function is listed by one class, the
methods of the name that are candidates with their declared overriders are the first one and those
that override the first one; and of the methods that classes below list under the name, all are
candidates or none, as the first one is virtual or not. -/
theorem ownMethod_candidate_iff {classes : List ClassRecord} {functions : List FunctionRecord}
    {h : Hierarchy} (hbuild : build classes functions = .ok h) {receiver name : String}
    {c : ClassRecord} {f : FunctionKey} (hc : h.class? receiver = some c)
    (hname : name ≠ destructorName) (hf : ⟨name, f⟩ ∈ c.methods) :
    ∃ g d, c.method? name = some g ∧ h.dispatch receiver name = .ok d ∧
      (∀ f', f' ∈ d.targets ↔ f' = g ∨ h.isVirtual g = true ∧ f' ∈ h.overriders g ∧
        h.ownedWithin (h.derivedClosure receiver) f' = true) ∧
      (ListedByOneClass classes →
        (h.CandidateBelow functions receiver name f d ↔ f = g ∨ f ∈ h.overriders g) ∧
        ∀ below c' f', h.DerivesFrom below receiver → h.class? below = some c' →
          ⟨name, f'⟩ ∈ c'.methods → (f' ∈ d.targets ↔ h.isVirtual g = true)) := by
  obtain ⟨order, hb⟩ := exists_built hbuild
  obtain ⟨g, hg⟩ := ClassRecord.exists_method? hf
  have hdecl := ClassTable.declaredIn?_of_method? hc hname hg
  obtain ⟨d, hd⟩ := exists_dispatch_iff.mpr ⟨g, .here hdecl⟩
  have hdisp := dispatched hd
  refine ⟨g, d, hg, hd, fun f' => ?_, fun hlisted => ?_⟩
  · rw [hdisp.mem_targets_iff_of_declares hdecl, isVirtual_iff, mem_overriders_iff]
  have hown := hb.ownedOnce hlisted
  have hbelow : ∀ below c' f', h.DerivesFrom below receiver → h.class? below = some c' →
      ⟨name, f'⟩ ∈ c'.methods → (f' ∈ d.targets ↔ h.isVirtual g = true) :=
    fun below c' f' hder hc' hf' => hb.mem_targets_iff_of_below hown hdisp hdecl hder hc'
      (ClassRecord.mem_declarations_of_mem_methods hf')
  have hmember : f ∈ c.members := ClassRecord.mem_members_of_mem_declarations
    (ClassRecord.mem_declarations_of_mem_methods hf)
  have hmem := hb.mem_targets_iff_of_member hown hdisp hdecl hc hmember
  refine ⟨⟨fun hcand => hmem.mp hcand.own, fun hfirst => ⟨hmem.mpr hfirst, ?_⟩⟩, hbelow⟩
  intro hv below c' f' hder hc' hf' _
  -- the first method is virtual, as the method itself or as what that overrides
  refine (hbelow below c' f' hder hc' hf').mpr ?_
  rcases hfirst with rfl | hover
  · exact hv
  · exact isVirtual_iff.mpr
      (hb.linksVirtual.mem_virtuals_of_transGen (mem_overriders_iff.mp hover))

/-- A base with one method, a class with two overloads of it, and a class below that overrides the
first of these. -/
def overloads : List ClassRecord :=
  [{ key := "P", methods := [⟨"f", "P::f(int)"⟩] },
   { key := "T", bases := [{ className := "P" }]
     methods := [⟨"f", "T::f(int)"⟩, ⟨"f", "T::f(double)"⟩] },
   { key := "U", bases := [{ className := "T" }], methods := [⟨"f", "U::f(int)"⟩] }]

/-- The method of the base is virtual, and the last one declares what it overrides. -/
def overloadFunctions : List FunctionRecord :=
  [{ key := "P::f(int)", isVirtual := true },
   { key := "U::f(int)", overrides := ["T::f(int)"] }]

/-- The second overload is a candidate of calls through the base and not through its own class. -/
theorem secondOverload_not_candidate : ∃ h c d d',
    build overloads overloadFunctions = .ok h ∧ ListedByOneClass overloads ∧
    h.class? "T" = some c ∧ ⟨"f", "T::f(double)"⟩ ∈ c.methods ∧
    h.dispatch "T" "f" = .ok d ∧ "T::f(double)" ∉ d.targets ∧
    h.dispatch "P" "f" = .ok d' ∧ "T::f(double)" ∈ d'.targets := by
  refine ⟨_, _, _, _, by cbv, by decide, by cbv, by decide, by cbv, fun hmem => ?_, by cbv, ?_⟩
  · exact absurd (List.contains_iff_mem.mpr hmem) (by cbv; decide)
  · exact List.contains_iff_mem.mp (by cbv)

theorem firstOverload_candidate : ∃ h c d, build overloads overloadFunctions = .ok h ∧
    h.class? "T" = some c ∧ "f" ≠ destructorName ∧ ⟨"f", "T::f(int)"⟩ ∈ c.methods ∧
    ListedByOneClass overloads ∧ h.dispatch "T" "f" = .ok d ∧
    h.CandidateBelow overloadFunctions "T" "f" "T::f(int)" d := by
  have hlisted : ListedByOneClass overloads := by decide
  have main := fun h c (hbuild : build overloads overloadFunctions = .ok h)
    (hc : h.class? "T" = some c) (hf : ⟨"f", "T::f(int)"⟩ ∈ c.methods) =>
    ownMethod_candidate_iff hbuild hc (by decide) hf
  obtain ⟨h, c, hbuild, hc, hf, hfirst⟩ : ∃ h c, build overloads overloadFunctions = .ok h ∧
      h.class? "T" = some c ∧ ⟨"f", "T::f(int)"⟩ ∈ c.methods ∧
      c.method? "f" = some "T::f(int)" := ⟨_, _, by cbv, by cbv, by decide, by decide⟩
  obtain ⟨g, d, hg, hd, -, hall⟩ := main h c hbuild hc hf
  exact ⟨h, c, d, hbuild, hc, by decide, hf, hlisted, hd,
    (hall hlisted).1.mpr (Or.inl (Option.some.inj (hfirst.symm.trans hg)))⟩

end Hierarchy

end CallGraphs
