import CallGraphs.Proofs.Classes.Inheritance

/-!
# Cycles of bases

A table can be ordered, bases before derived classes, exactly if no class
derives from itself (`ClassTable.exists_basesFirst_iff`).  One direction is
`Ordered.derivesFrom_irrefl`.  For the other one, the walk stops only at a class
that is on its path; the path climbs from base to base, so from that class it
leads up to the class itself (`Climbs`).

Hence a hierarchy can be built exactly if no class derives from itself, whatever
the order of the records (`Hierarchy.exists_build_iff`).
-/

namespace CallGraphs

open Relation

namespace ClassTable

/-- The path of a depth-first walk leads upwards: each class on it is a base of the next one in the
list, and what is still to be looked at are bases. -/
def Climbs (t : ClassTable) : List (String × List String) → Prop
  | [] => True
  | (key, bases) :: rest =>
      bases ⊆ t.basesOf key ∧ (∀ below ∈ (onPath rest).head?, t.HasBase below key) ∧ Climbs t rest

theorem Climbs.skip {t : ClassTable} {key base : String} {bases : List String}
    {rest : List (String × List String)} (h : t.Climbs ((key, base :: bases) :: rest)) :
    t.Climbs ((key, bases) :: rest) := by
  obtain ⟨hbases, hbelow, hrest⟩ := h
  exact ⟨fun b hb => hbases (List.mem_cons_of_mem _ hb), hbelow, hrest⟩

/-- From every class on the path a chain of bases leads up to its top. -/
theorem Climbs.reflTransGen {t : ClassTable} {rest : List (String × List String)} :
    ∀ {key : String} {bases : List String}, t.Climbs ((key, bases) :: rest) →
      ∀ x ∈ onPath ((key, bases) :: rest), ReflTransGen t.HasBase x key := by
  induction rest with
  | nil =>
      intro key bases _ x hx
      obtain rfl := List.mem_singleton.mp hx
      exact .refl
  | cons entry rest ih =>
      obtain ⟨below, others⟩ := entry
      intro key bases ⟨_, hbelow, hrest⟩ x hx
      rcases List.mem_cons.mp hx with rfl | hx
      · exact .refl
      · exact (ih hrest x hx).tail (hbelow below rfl)

/-- A walk stops at a class that derives from itself. -/
theorem derivesFrom_self_of_walk {t : ClassTable} {bad : String}
    (path : List (String × List String)) (done : List String) (hpath : t.Climbs path)
    (h : t.walk path done = .error bad) : t.DerivesFrom bad bad := by
  fun_induction t.walk path done with
  | case1 => exact absurd h (by simp)
  | case2 done key rest ih => exact ih hpath.2.2 h
  | case3 done key base bases rest hunknown ih => exact ih hpath.skip h
  | case4 done key base bases rest hknown hon =>
      obtain rfl := Except.error.inj h
      -- the path leads from the class up to the top, and the class is a base of that
      have hbase : t.HasBase key base := ⟨hpath.1 List.mem_cons_self, not_not.mp hknown⟩
      exact TransGen.tail'_iff.mpr ⟨key, hpath.skip.reflTransGen base hon, hbase⟩
  | case5 done key base bases rest hknown hfree hbase ih => exact ih hpath.skip h
  | case6 done key base bases rest hknown hfree hnew ih =>
      refine ih ⟨List.Subset.refl _, ?_, hpath.skip⟩ h
      intro below hbelow
      obtain rfl := Option.some.inj hbelow
      exact ⟨hpath.1 List.mem_cons_self, not_not.mp hknown⟩

theorem derivesFrom_self_of_walkFrom {t : ClassTable} {done : List String} {root bad : String}
    (h : t.walkFrom done root = .error bad) : t.DerivesFrom bad bad := by
  rw [walkFrom] at h
  split at h
  · exact absurd h (by simp)
  · have hpath : t.Climbs [(root, t.basesOf root)] :=
      ⟨List.Subset.refl _, by simp [onPath], trivial⟩
    exact derivesFrom_self_of_walk _ _ hpath h

theorem derivesFrom_self_of_foldlM {t : ClassTable} {bad : String} :
    ∀ {roots done : List String}, roots.foldlM t.walkFrom done = .error bad → t.DerivesFrom bad bad
  | [], _, h => absurd h (by simp [pure, Except.pure])
  | root :: roots, done, h => by
      rw [List.foldlM_cons] at h
      cases hwalk : t.walkFrom done root with
      | error key =>
          rw [hwalk] at h
          obtain rfl := Except.error.inj h
          exact derivesFrom_self_of_walkFrom hwalk
      | ok next =>
          rw [hwalk] at h
          exact derivesFrom_self_of_foldlM h

/-- Bases can be put before derived classes exactly if no class derives from itself. -/
theorem exists_basesFirst_iff {t : ClassTable} :
    (∃ order, t.basesFirst = .ok order) ↔ ∀ key, ¬ t.DerivesFrom key key := by
  constructor
  · rintro ⟨order, horder⟩ key
    obtain ⟨hordered, hall⟩ := ordered_basesFirst horder
    exact hordered.derivesFrom_irrefl hall
  · intro hacyclic
    cases horder : t.basesFirst with
    | ok order => exact ⟨order, rfl⟩
    | error bad => exact absurd (derivesFrom_self_of_foldlM horder) (hacyclic bad)

end ClassTable

namespace Hierarchy

/-- A hierarchy can be built exactly if no class derives from itself. -/
theorem exists_build_iff {classes : List ClassRecord} {functions : List FunctionRecord} :
    (∃ h, build classes functions = .ok h) ↔
      ∀ key, ¬ (ClassTable.ofRecords classes).DerivesFrom key key := by
  rw [← ClassTable.exists_basesFirst_iff]
  simp only [build]
  cases (ClassTable.ofRecords classes).basesFirst with
  | error bad => simp
  | ok order => simp

end Hierarchy

end CallGraphs
