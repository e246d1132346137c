import CallGraphs.Proofs.Classes.Cycles
import CallGraphs.Proofs.Classes.Joining
import CallGraphs.Proofs.Classes.Overriding

/-!
# Which records make a hierarchy

Cycle detection is exact, said of the records alone (`Hierarchy.build_exact`).
A class has a listed base if one of its records names the base and some record
is of that class.  The records make no hierarchy exactly if a chain of such steps
leads from a class back to it, and the class that is reported is one of those; a
class that is reached on several ways, as the top of a diamond is, is no cycle.
If they make one, then the order in which its classes are looked at holds every
class once, before all that derives from it, and the problems are the bases that
no record is of, in the order in which classes and bases were first named.
-/

namespace CallGraphs

open Relation

/-! ## What records say of bases -/

/-- A record of the class names a base, and the base has a record too. -/
def HasListedBase (classes : List ClassRecord) (key base : String) : Prop :=
  (∃ c ∈ classes, c.key = key ∧ base ∈ c.baseNames) ∧ ∃ c ∈ classes, c.key = base

/-- The bases of a class over all its records: those of the first record as they stand, then those
that later ones add, each once. -/
def listedBases (classes : List ClassRecord) (key : String) : List String :=
  match classes.filter (·.key = key) with
  | [] => []
  | first :: rest =>
    first.baseNames ++ ((rest.flatMap (·.baseNames)).filter (· ∉ first.baseNames)).eraseDups

/-- One line for every base of a class that no record is of. -/
def unlistedBases (classes : List ClassRecord) : List String :=
  (classes.map (·.key)).eraseDups.flatMap fun key =>
    ((listedBases classes key).filter (· ∉ classes.map (·.key))).map fun base =>
      "class " ++ key ++ " has unknown base " ++ base

theorem mem_listedBases {classes : List ClassRecord} {key base : String} :
    base ∈ listedBases classes key ↔ ∃ c ∈ classes, c.key = key ∧ base ∈ c.baseNames := by
  have hrecords : (∃ c ∈ classes, c.key = key ∧ base ∈ c.baseNames) ↔
      ∃ c ∈ classes.filter (·.key = key), base ∈ c.baseNames := by
    simp [and_assoc]
  rw [hrecords, listedBases]
  cases classes.filter (·.key = key) with
  | nil => simp
  | cons first rest =>
      rw [← ClassRecord.mem_baseNames_joined, ClassRecord.baseNames_joined]

namespace ClassTable

theorem basesOf_ofRecords (classes : List ClassRecord) (key : String) :
    (ofRecords classes).basesOf key = listedBases classes key := by
  rw [basesOf, class?_ofRecords_eq, listedBases]
  cases classes.filter (·.key = key) with
  | nil => rfl
  | cons first rest => exact ClassRecord.baseNames_joined first rest

theorem hasBase_ofRecords {classes : List ClassRecord} :
    (ofRecords classes).HasBase = HasListedBase classes := by
  funext key base
  rw [HasBase, basesOf_ofRecords, mem_listedBases, mem_keys_ofRecords, HasListedBase]

theorem problems_ofRecords (classes : List ClassRecord) :
    (ofRecords classes).problems = unlistedBases classes := by
  have hknown : ∀ base, (!(ofRecords classes).contains base) =
      decide (base ∉ classes.map (·.key)) := by
    intro base
    rw [decide_not, Bool.not_inj_iff, Bool.eq_iff_iff, contains_iff, keys_ofRecords,
      List.mem_eraseDups, decide_eq_true_iff]
  rw [unlistedBases, ← keys_ofRecords, keys, List.flatMap_map, problems]
  refine List.flatMap_congr fun c hc => ?_
  have hbases : c.baseNames = listedBases classes c.key := by
    rw [← basesOf_ofRecords, basesOf, class?_of_mem (nodup_keys_ofRecords classes) hc]
    rfl
  simp only [hbases, hknown]

/-! ## The order of classes -/

/-- A walk lists no class that is not in the table. -/
theorem subset_keys_of_walk {t : ClassTable} {order : List String}
    (path : List (String × List String)) (done : List String) (hdone : done ⊆ t.keys)
    (hpath : onPath path ⊆ t.keys) (h : t.walk path done = .ok order) : order ⊆ t.keys := by
  fun_induction t.walk path done with
  | case1 done =>
      obtain rfl := Except.ok.inj h
      exact hdone
  | case2 done key rest ih =>
      obtain ⟨hkey, hrest⟩ := List.cons_subset.mp hpath
      exact ih (List.append_subset.mpr ⟨hdone, by simpa using hkey⟩) hrest h
  | case3 done key base bases rest hunknown ih => exact ih hdone hpath h
  | case4 => exact absurd h (by simp)
  | case5 done key base bases rest hknown hfree hbase ih => exact ih hdone hpath h
  | case6 done key base bases rest hknown hfree hnew ih =>
      exact ih hdone (List.cons_subset.mpr ⟨not_not.mp hknown, hpath⟩) h

theorem subset_keys_of_foldlM {t : ClassTable} {order : List String} :
    ∀ {roots done : List String}, roots ⊆ t.keys → done ⊆ t.keys →
      roots.foldlM t.walkFrom done = .ok order → order ⊆ t.keys
  | [], done, _, hdone, h => by
      obtain rfl := Except.ok.inj h
      exact hdone
  | root :: roots, done, hroots, hdone, h => by
      obtain ⟨hroot, hroots⟩ := List.cons_subset.mp hroots
      rw [List.foldlM_cons] at h
      cases hwalk : t.walkFrom done root with
      | error key =>
          rw [hwalk] at h
          exact absurd h (by simp [bind, Except.bind])
      | ok next =>
          rw [hwalk] at h
          refine subset_keys_of_foldlM hroots ?_ h
          rw [walkFrom] at hwalk
          split at hwalk
          · obtain rfl := Except.ok.inj hwalk
            exact hdone
          · exact subset_keys_of_walk _ _ hdone (by simpa [onPath] using hroot) hwalk

theorem Ordered.nodup {t : ClassTable} {order : List String} (h : t.Ordered order) :
    order.Nodup := by
  induction h with
  | nil => exact List.nodup_nil
  | snoc _ hnew _ ih =>
      exact List.nodup_append.mpr ⟨ih, List.nodup_singleton _, fun a ha b hb hab =>
        hnew (List.mem_singleton.mp hb ▸ hab ▸ ha)⟩

/-- In an ordered list, what a class derives from comes before it. -/
theorem Ordered.sublist {t : ClassTable} {order : List String} (h : t.Ordered order)
    {key base : String} (hkey : key ∈ order) (hbase : t.DerivesFrom key base) :
    [base, key].Sublist order := by
  induction h with
  | nil => exact absurd hkey List.not_mem_nil
  | @snoc done last hdone hlast hbases ih =>
      rcases List.mem_append.mp hkey with hkey | hkey
      · exact (ih hkey).trans (List.sublist_append_left done [last])
      · obtain ⟨hmem, hne⟩ := (Ordered.snoc hdone hlast hbases).above
          (List.mem_append_right _ hkey) hbase
        obtain rfl := List.mem_singleton.mp hkey
        have hbefore : base ∈ done :=
          (List.mem_append.mp hmem).resolve_right fun h => hne (List.mem_singleton.mp h)
        exact (List.singleton_sublist.mpr hbefore).append (List.Sublist.refl [key])

/-- The order of the classes of a table: each of them once, after all it derives from. -/
theorem basesFirst_spec {t : ClassTable} {order : List String} (h : t.basesFirst = .ok order) :
    order.Nodup ∧ (∀ key, key ∈ order ↔ key ∈ t.keys) ∧
      ∀ key base, t.DerivesFrom key base → [base, key].Sublist order := by
  obtain ⟨hordered, hall⟩ := ordered_basesFirst h
  have hsub : order ⊆ t.keys :=
    subset_keys_of_foldlM (List.Subset.refl _) (List.nil_subset _) h
  refine ⟨hordered.nodup, fun key => ⟨fun hkey => hsub hkey, fun hkey => hall hkey⟩, ?_⟩
  intro key base hbase
  obtain ⟨first, hfirst, -⟩ := TransGen.head'_iff.mp hbase
  exact hordered.sublist (hall (mem_keys_of_mem_basesOf hfirst.1)) hbase

end ClassTable

namespace Hierarchy

/-! ## Building is exact -/

theorem derivesFrom_self_of_build {classes : List ClassRecord} {functions : List FunctionRecord}
    {bad : String} (hbuild : build classes functions = .error bad) :
    (ClassTable.ofRecords classes).DerivesFrom bad bad := by
  rw [build] at hbuild
  split at hbuild
  · next key horder =>
    obtain rfl := Except.error.inj hbuild
    exact ClassTable.derivesFrom_self_of_foldlM horder
  · exact absurd hbuild (by simp)

/-- Records make no hierarchy exactly if some class derives from itself, and a class that does is
what is reported.  If they make one, its classes can be put in an order that has each of them once
and after all it derives from, and its problems are the bases without a record. -/
theorem build_exact (classes : List ClassRecord) (functions : List FunctionRecord) :
    ((∃ bad, build classes functions = .error bad) ↔
      ∃ key, TransGen (HasListedBase classes) key key) ∧
    match build classes functions with
    | .error bad => TransGen (HasListedBase classes) bad bad
    | .ok h =>
      (∃ order, h.basesFirst = .ok order ∧ order.Nodup ∧
        (∀ key, key ∈ order ↔ ∃ c ∈ classes, c.key = key) ∧
        ∀ key base, TransGen (HasListedBase classes) key base → [base, key].Sublist order) ∧
      h.problems = unlistedBases classes := by
  rw [← ClassTable.hasBase_ofRecords]
  cases hbuild : build classes functions with
  | error bad =>
      have hself := derivesFrom_self_of_build hbuild
      exact ⟨⟨fun _ => ⟨bad, hself⟩, fun _ => ⟨bad, rfl⟩⟩, hself⟩
  | ok h =>
      have hacyclic := exists_build_iff.mp ⟨h, hbuild⟩
      obtain ⟨order, horder⟩ := ClassTable.exists_basesFirst_iff.mpr hacyclic
      obtain ⟨hnodup, hall, hbefore⟩ := ClassTable.basesFirst_spec horder
      obtain ⟨_, hb⟩ := exists_built hbuild
      refine ⟨⟨?_, ?_⟩, ⟨order, ?_, hnodup, ?_, hbefore⟩, ?_⟩
      · rintro ⟨_, herror⟩
        exact absurd herror (by simp)
      · rintro ⟨key, hself⟩
        exact absurd hself (hacyclic key)
      · rw [hb.toClassTable_eq, horder]
      · exact fun key => (hall key).trans ClassTable.mem_keys_ofRecords
      · rw [hb.toClassTable_eq, ClassTable.problems_ofRecords]

/-- The top of a diamond is no cycle, and a base without a record is a problem each time that the
first record of its class names it. -/
example :
    let classes : List ClassRecord :=
      [{ key := "Both", bases := [⟨"Left", false, .publicly⟩, ⟨"Right", false, .publicly⟩] },
        { key := "Left", bases := [⟨"Top", true, .publicly⟩, ⟨"Lost", false, .publicly⟩,
          ⟨"Lost", false, .publicly⟩] },
        { key := "Right", bases := [⟨"Top", true, .publicly⟩] },
        { key := "Top" },
        { key := "Right", bases := [⟨"Lost", false, .publicly⟩, ⟨"Lost", false, .publicly⟩] }]
    (build classes []).toOption.map (fun h => (h.basesFirst.toOption, h.problems)) =
      some (some ["Top", "Left", "Right", "Both"], ["class Left has unknown base Lost",
        "class Left has unknown base Lost", "class Right has unknown base Lost"]) := by
  cbv

end Hierarchy

end CallGraphs
