import CallGraphs.Proofs.Analysis.Growth
import CallGraphs.Proofs.Classes.Destructors
import Mathlib

/-!
# Deleting objects

Deleting an object through a pointer to a class with a virtual destructor does
not look the destructor up.  It goes through the class and all classes below it,
and runs what destroying an object of any of these runs.  That covers whatever a
virtual call of the destructor may run (`deletion_covers_dispatch`), if links
are inferred only, every member function is listed by one class and no
destructor is a method as well.  A method that overrides a destructor under
another name is found by the call and not by the deletion.

The calls of an event all carry one confidence (`carries_eventTargets`).  A
deletion is certain exactly if no class derives from its class.
-/

namespace CallGraphs

open Relation

namespace LifetimeCalls

variable {classes : List ClassRecord} {functions : List FunctionRecord} {h : Hierarchy}
  {e : LifetimeEvent}

/-! ## The calls of an event -/

/-- Whatever graph it is added to, an event adds the calls of its caller to these functions, with
this confidence, and no others.  A pass over a unit with the event leaves them in the graph. -/
structure Carries (h : Hierarchy) (e : LifetimeEvent) (targets : List FunctionKey)
    (confidence : Confidence) : Prop where
  step : ∀ (s : Scope) (state : State), state.1.WellFormed → ∀ a b k c,
    .call a b k c ∈ (addEvent s h state e).1.features ↔ .call a b k c ∈ state.1.features ∨
      a = e.caller ∧ b ∈ targets ∧ k = .implicit ∧ c = confidence
  run : ∀ (s : Scope) (options : Options) (u : TranslationUnit) (g : Graph), g.WellFormed →
    options.captureLifetimes = true → e ∈ u.allLifetimeEvents → ∀ f ∈ targets,
      .call e.caller f .implicit confidence ∈ (run s options h u g).1.features

theorem carries_eventTargets (hknown : h.contains e.className = true) :
    Carries h e (eventTargets h e).1 (eventTargets h e).2 where
  step s state hstate a b k c := by
    rw [(adds_addEvent s h hstate e).features, Set.mem_union, ofEvent, Set.mem_ofPred_eq,
      call_mem_ofCalls]
    simp only [hknown, true_and]
  run s options u g hg hcapture he f hf := by
    rw [(adds_run s h options hg u).features]
    exact Or.inr ⟨hcapture, Or.inl ⟨e, he, hknown, call_mem_ofCalls.mpr ⟨rfl, hf, rfl, rfl⟩⟩⟩

/-! ## When a deletion is certain -/

/-- No class is below itself, so those in the closure of a class besides it derive from it. -/
theorem deleteTargets_definite_iff {order : List String}
    (hb : Hierarchy.Built classes functions order h) {key : String} (hknown : key ∈ h.keys)
    (hvirtual : h.hasVirtualDestructor key = true) :
    (deleteTargets h key).2 = .definite ↔ ∀ below, ¬ h.DerivesFrom below key := by
  have hmay : (deleteTargets h key).2 = .may ↔ ∃ below, h.DerivesFrom below key := by
    rw [deleteTargets_may_iff (ClassTable.contains_iff.mpr hknown), and_iff_right hvirtual]
    refine exists_congr fun below => ?_
    rw [ClassTable.mem_derivedClosure_iff hb.nodup_keys hknown, reflTransGen_iff_eq_or_transGen]
    constructor
    · rintro ⟨hsame | hpath, hne⟩
      · exact absurd hsame.symm hne
      · exact hpath
    · intro hpath
      refine ⟨Or.inr hpath, ?_⟩
      rintro rfl
      exact hb.derivesFrom_irrefl hpath
  rw [← not_exists, ← hmay]
  cases (deleteTargets h key).2 <;> simp

/-! ## Main statement -/

/-- Deleting an object of a class with a virtual destructor calls whatever a virtual call of the
destructor may call, and just what destroying an object of the class or of one below it runs.  All
its calls are equally certain, and they are certain exactly if no class derives from the class. -/
theorem deletion_covers_dispatch (hbuild : Hierarchy.build classes functions = .ok h)
    (hnone : ∀ r ∈ functions, r.overrides = [])
    (hlisted : Hierarchy.ListedByOneClass classes)
    (hmethods : Hierarchy.NoMethodNamedDestructor classes)
    (hroles : Hierarchy.NoDestructorIsMethod classes)
    (hphase : e.phase = .destroy) (hkind : e.kind = .heap ∨ e.kind = .explicit)
    (hvirtual : h.hasVirtualDestructor e.className = true) :
    ∃ targets confidence, Carries h e targets confidence ∧
      (∀ d, h.dispatch e.className destructorName = .ok d → ∀ f ∈ d.targets, f ∈ targets) ∧
      (∀ f, f ∈ targets ↔ ∃ below, ReflTransGen h.HasBase below e.className ∧
        f ∈ h.destroyTargets below) ∧
      (confidence = .definite ↔ ∀ below, ¬ h.DerivesFrom below e.className) := by
  obtain ⟨order, hb⟩ := Hierarchy.exists_built hbuild
  have hown := hb.ownedOnce hlisted
  have hknown : e.className ∈ h.keys :=
    ((hb.mem_virtualDestructors_iff hown).mp (of_decide_eq_true hvirtual)).known
  have hdispatches : e.kind.dispatches = true := by
    rcases hkind with hkind | hkind <;> rw [hkind] <;> rfl
  have hcarries := carries_eventTargets (ClassTable.contains_iff.mpr hknown)
  rw [eventTargets_of_dispatches hphase hdispatches] at hcarries
  refine ⟨_, _, hcarries, fun d hd f hf => ?_, fun f => ?_, ?_⟩
  · exact (mem_deleteTargets_iff hvirtual).mpr
      (hb.exists_destroys_of_mem_targets hown hnone hmethods hroles hd hf)
  · simp only [mem_deleteTargets_iff hvirtual,
      ClassTable.mem_derivedClosure_iff hb.nodup_keys hknown]
  · exact deleteTargets_definite_iff hb hknown hvirtual

/-- A class with a virtual destructor, one below it that declares none but has a member with a
destructor, and one below that with a destructor. -/
def widgets : List ClassRecord :=
  [{ key := "Widget", destructor := some ⟨"Widget::~Widget", true⟩ },
   { key := "Panel", bases := [{ className := "Widget" }],
     fields := [{ name := "title", className := some "Title" }] },
   { key := "Button", bases := [{ className := "Panel" }],
     destructor := some ⟨"Button::~Button", false⟩ },
   { key := "Title", destructor := some ⟨"Title::~Title", false⟩ }]

/-- `main` deletes a widget. -/
def deletesWidget : LifetimeEvent :=
  { caller := "main", kind := .heap, phase := .destroy, className := "Widget" }

/-- The deletion runs the destructor of the member too, which no call of the destructor finds. -/
theorem deletesWidget_covers : Hierarchy.ListedByOneClass widgets ∧
    Hierarchy.NoMethodNamedDestructor widgets ∧ Hierarchy.NoDestructorIsMethod widgets ∧
    ∃ h targets, Hierarchy.build widgets [] = .ok h ∧
      h.hasVirtualDestructor "Widget" = true ∧ Carries h deletesWidget targets .may ∧
      ∀ f ∈ ["Widget::~Widget", "Title::~Title", "Button::~Button"], f ∈ targets := by
  have hlisted : Hierarchy.ListedByOneClass widgets := by decide
  have hmethods : Hierarchy.NoMethodNamedDestructor widgets := by decide
  have hroles : Hierarchy.NoDestructorIsMethod widgets := by decide
  refine ⟨hlisted, hmethods, hroles, ?_⟩
  obtain ⟨h, hbuild, hvirtual, hdispatch, hmember, hpanel⟩ : ∃ h,
      Hierarchy.build widgets [] = .ok h ∧ h.hasVirtualDestructor "Widget" = true ∧
      h.dispatch "Widget" destructorName =
        .ok { targets := .ofList ["Button::~Button", "Widget::~Widget"], confidence := .may } ∧
      h.destroyTargets "Panel" = ["Title::~Title", "Widget::~Widget"] ∧
      h.HasBase "Panel" "Widget" :=
    ⟨_, by cbv, by cbv, by cbv, by cbv, List.contains_iff_mem.mp (by cbv),
      List.contains_iff_mem.mp (by cbv)⟩
  obtain ⟨targets, confidence, hcarries, hcovers, hexact, hcertain⟩ :=
    deletion_covers_dispatch (e := deletesWidget) hbuild (by simp) hlisted hmethods hroles rfl
      (Or.inl rfl) hvirtual
  have hmay : confidence = .may := by
    cases confidence with
    | may => rfl
    | definite => exact absurd (.single hpanel) (hcertain.mp rfl "Panel")
  refine ⟨h, targets, hbuild, hvirtual, hmay ▸ hcarries, ?_⟩
  simp only [List.forall_mem_cons]
  refine ⟨hcovers _ hdispatch _ (by decide), (hexact _).mpr ⟨"Panel", .single hpanel, ?_⟩,
    hcovers _ hdispatch _ (by decide), by simp⟩
  simp [hmember]

/-! ## A function in two roles -/

/-- A destructor that is listed as a method too, and a method of that name in a class below.  `main`
deletes an object of the class. -/
def destructorAsMethod : TranslationUnit where
  name := "deletes"
  functions := [{ key := "main", defined := true }]
  classes := [{ key := "T", methods := [⟨"f", "T::~T"⟩], destructor := some ⟨"T::~T", true⟩ },
    { key := "E", bases := [{ className := "T" }], methods := [⟨"f", "E::f"⟩] }]
  lifetimeEvents := [{ caller := "main", kind := .heap, phase := .destroy, className := "T" }]

/-- The method below overrides the function as a method, so that a call of the destructor may run
it.  The deletion does not. -/
theorem destructorAsMethod_not_covered :
    (∀ r ∈ destructorAsMethod.functions, r.overrides = []) ∧
    Hierarchy.ListedByOneClass destructorAsMethod.classes ∧
    Hierarchy.NoMethodNamedDestructor destructorAsMethod.classes ∧
    ∃ h d p, Hierarchy.build destructorAsMethod.classes destructorAsMethod.functions = .ok h ∧
      h.hasVirtualDestructor "T" = true ∧ h.dispatch "T" destructorName = .ok d ∧
      "E::f" ∈ d.targets ∧ UnitGraph.analyse {} false 0 destructorAsMethod = .ok p ∧
      ∀ confidence, .call "main" "E::f" .implicit confidence ∉ p.graph.features := by
  refine ⟨by decide, by decide, by decide, ?_⟩
  obtain ⟨h, p, hbuild, hvirtual, hdispatch, hanalysed, hcalls⟩ : ∃ h p,
      Hierarchy.build destructorAsMethod.classes destructorAsMethod.functions = .ok h ∧
      h.hasVirtualDestructor "T" = true ∧ h.dispatch "T" destructorName =
        .ok { targets := .ofList ["E::f", "T::~T"], confidence := .may } ∧
      UnitGraph.analyse {} false 0 destructorAsMethod = .ok p ∧
      p.graph.calls = [⟨"main", "T::~T", .implicit, .may, some "deletes"⟩] :=
    ⟨_, _, by cbv, by cbv, by cbv, by cbv, by cbv⟩
  refine ⟨h, _, p, hbuild, hvirtual, hdispatch, by decide, hanalysed, fun confidence hcall => ?_⟩
  obtain ⟨call, hmem, -, hcallee, -⟩ := Graph.call_mem_features.mp hcall
  rw [hcalls, List.mem_singleton] at hmem
  subst hmem
  exact absurd hcallee (by decide)

end LifetimeCalls

end CallGraphs
