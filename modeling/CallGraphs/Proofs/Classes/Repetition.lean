import CallGraphs.Proofs.Classes.Growth
import CallGraphs.Proofs.Echo

/-!
# Records that are repeated

A class that has absorbed a record covers it: another record that says the same
leaves the class as it is (`ClassRecord.absorb_of_covers`), whatever was absorbed
in between.  So a table is the same with and without repeated records, and with
it the order of the classes.  Of the function records a hierarchy asks only which
there are.  So repeated records leave a hierarchy as it is
(`Hierarchy.build_of_echoes`).
-/

namespace CallGraphs

/-! ## Classes -/

theorem any_appendNew {α : Type} {same : α → α → Bool} {x : α} {l : List α} (more : List α)
    (h : l.any (same x) = true) : (appendNew same l more).any (same x) = true := by
  rw [appendNew]
  induction more generalizing l with
  | nil => exact h
  | cons y more ih =>
      rw [List.foldl_cons]
      split
      · exact ih h
      · refine ih ?_
        rw [List.any_append, h, Bool.true_or]

theorem any_appendNew_of_mem {α : Type} {same : α → α → Bool} (hsame : ∀ x, same x x = true)
    {x : α} {more : List α} (hx : x ∈ more) (l : List α) :
    (appendNew same l more).any (same x) = true := by
  induction more generalizing l with
  | nil => exact absurd hx List.not_mem_nil
  | cons y more ih =>
      rcases List.mem_cons.mp hx with rfl | hx
      · refine any_appendNew more ?_
        dsimp only
        split
        · next hknown => exact hknown
        · rw [List.any_append, List.any_cons, hsame, Bool.true_or, Bool.or_true]
      · exact ih hx _

namespace ClassRecord

/-- A class knows all that a record of it says. -/
structure Covers (c r : ClassRecord) : Prop where
  bases : ∀ b ∈ r.bases, c.bases.any (fun a => b.className = a.className) = true
  methods : ∀ m ∈ r.methods, c.methods.any (fun a => m.function = a.function) = true
  constructors : ∀ k ∈ r.constructors, c.constructors.any (fun a => k.function = a.function) = true
  destructor : c.destructor = none → r.destructor = none
  fields : ∀ f ∈ r.fields, c.fields.any (fun a => f.name = a.name) = true
  isUnion : r.isUnion = true → c.isUnion = true

variable {c r : ClassRecord}

theorem absorb_of_covers (h : c.Covers r) : c.absorb r = c := by
  have hdestructor : (c.destructor <|> r.destructor) = c.destructor := by
    cases hc : c.destructor with
    | some d => rfl
    | none => exact h.destructor hc
  have hunion : (c.isUnion || r.isUnion) = c.isUnion := by
    cases hr : r.isUnion with
    | false => exact Bool.or_false _
    | true => rw [h.isUnion hr, Bool.or_true]
  rw [absorb, appendNew_of_forall h.bases, appendNew_of_forall h.methods,
    appendNew_of_forall h.constructors, appendNew_of_forall h.fields, hdestructor, hunion]

theorem covers_absorb_self (c r : ClassRecord) : (c.absorb r).Covers r where
  bases _ hb := any_appendNew_of_mem (by simp) hb _
  methods _ hm := any_appendNew_of_mem (by simp) hm _
  constructors _ hk := any_appendNew_of_mem (by simp) hk _
  destructor h := by
    cases hc : c.destructor with
    | some d => simp [absorb, hc] at h
    | none => simpa [absorb, hc] using h
  fields _ hf := any_appendNew_of_mem (by simp) hf _
  isUnion h := by simp [absorb, h]

theorem covers_self (r : ClassRecord) : r.Covers r := by
  have h := covers_absorb_self r r
  rwa [absorb_self] at h

theorem Covers.absorb (h : c.Covers r) (other : ClassRecord) : (c.absorb other).Covers r where
  bases b hb := any_appendNew _ (h.bases b hb)
  methods m hm := any_appendNew _ (h.methods m hm)
  constructors k hk := any_appendNew _ (h.constructors k hk)
  destructor hnone := by
    refine h.destructor ?_
    cases hc : c.destructor with
    | some d => simp [ClassRecord.absorb, hc] at hnone
    | none => rfl
  fields f hf := any_appendNew _ (h.fields f hf)
  isUnion hr := by simp [ClassRecord.absorb, h.isUnion hr]

end ClassRecord

namespace ClassTable

/-- The class of a record is in the table and knows all that the record says. -/
def Covers (t : ClassTable) (r : ClassRecord) : Prop :=
  r.key ∈ t.keys ∧ ∀ c ∈ t.records, c.key = r.key → c.Covers r

theorem add_of_covers {t : ClassTable} {r : ClassRecord} (h : t.Covers r) : t.add r = t := by
  have hcontains : t.contains r.key = true := contains_iff.mpr h.1
  rw [add, if_pos hcontains]
  have hmap : t.records.map (fun c => if c.key = r.key then c.absorb r else c) = t.records := by
    refine (List.map_congr_left fun c hc => ?_).trans (List.map_id _)
    split
    · next hkey => exact ClassRecord.absorb_of_covers (h.2 c hc hkey)
    · rfl
  rw [hmap]

theorem covers_add_self (t : ClassTable) (r : ClassRecord) : (t.add r).Covers r := by
  constructor
  · rw [keys_add]
    split
    · next hmem => exact hmem
    · exact List.mem_append_right _ List.mem_cons_self
  · intro c hc hkey
    rw [add] at hc
    split at hc
    · obtain ⟨d, hd, rfl⟩ := List.mem_map.mp hc
      split at hkey
      · next hsame =>
        rw [if_pos hsame]
        exact ClassRecord.covers_absorb_self d r
      · next hother => exact absurd hkey hother
    · next hnew =>
      rcases List.mem_append.mp hc with hc | hc
      · exact absurd (contains_iff.mpr (List.mem_map.mpr ⟨c, hc, hkey⟩)) hnew
      · rw [List.mem_singleton.mp hc]
        exact ClassRecord.covers_self r

theorem Covers.add {t : ClassTable} {r : ClassRecord} (h : t.Covers r) (other : ClassRecord) :
    (t.add other).Covers r := by
  constructor
  · rw [keys_add]
    split
    · exact h.1
    · exact List.mem_append_left _ h.1
  · intro c hc hkey
    rw [ClassTable.add] at hc
    split at hc
    · obtain ⟨d, hd, rfl⟩ := List.mem_map.mp hc
      split at hkey
      · next hsame =>
        rw [if_pos hsame]
        exact (h.2 d hd hkey).absorb other
      · next hdiffers =>
        rw [if_neg hdiffers]
        exact h.2 d hd hkey
    · next hnew =>
      rcases List.mem_append.mp hc with hc | hc
      · exact h.2 c hc hkey
      · obtain rfl := List.mem_singleton.mp hc
        exact absurd (contains_iff.mpr (hkey ▸ h.1)) hnew

/-- Repeated records leave a table as it is. -/
theorem ofRecords_of_echoes {classes classes' : List ClassRecord}
    (h : Echoes [] classes classes') : ofRecords classes = ofRecords classes' :=
  h.foldl (R := Eq) (D := fun r t => t.Covers r) (fun _ _ _ hst => by rw [hst])
    (fun _ t r _ => covers_add_self t r) (fun _ _ other _ _ hr => hr.add other)
    (fun _ _ _ hst hr => hst.trans (add_of_covers hr).symm) rfl
    fun _ hr => absurd hr List.not_mem_nil

end ClassTable

/-! ## Hierarchies -/

namespace Hierarchy

theorem declaredVirtual_congr {t : ClassTable} {functions functions' : List FunctionRecord}
    (hmem : ∀ r, r ∈ functions ↔ r ∈ functions') (f : FunctionKey) :
    DeclaredVirtual t functions f ↔ DeclaredVirtual t functions' f := by
  simp only [DeclaredVirtual, mem_declaredVirtuals, declaredOverrides, List.mem_flatMap, hmem]

/-- What is declared depends only on which records there are. -/
theorem declared_congr {t : ClassTable} {functions functions' : List FunctionRecord}
    (hmem : ∀ r, r ∈ functions ↔ r ∈ functions') :
    declared t functions = declared t functions' := by
  have hvirtuals : (declared t functions).virtuals = (declared t functions').virtuals :=
    SortedSet.eq_of_forall_mem_iff fun f => by
      rw [mem_virtuals_declared, mem_virtuals_declared, declaredVirtual_congr hmem]
  have hoverrides : (declared t functions).overrides = (declared t functions').overrides :=
    SortedSet.eq_of_forall_mem_iff fun o => by
      rw [mem_overrides_declared, mem_overrides_declared]
      simp only [declaredOverrides, List.mem_flatMap, hmem]
  have hdestructors : (declared t functions).virtualDestructors =
      (declared t functions').virtualDestructors := by
    rw [virtualDestructors_declared, virtualDestructors_declared]
  have htable : (declared t functions).toClassTable = (declared t functions').toClassTable := by
    rw [toClassTable_declared, toClassTable_declared]
  generalize declared t functions = h at *
  generalize declared t functions' = h' at *
  cases h
  cases h'
  simp_all

/-- Repeated records leave a hierarchy as it is. -/
theorem build_of_echoes {classes classes' : List ClassRecord}
    {functions functions' : List FunctionRecord} (hclasses : Echoes [] classes classes')
    (hfunctions : ∀ r, r ∈ functions ↔ r ∈ functions') :
    build classes functions = build classes' functions' := by
  rw [build, build, ClassTable.ofRecords_of_echoes hclasses, declared_congr hfunctions]

end Hierarchy

end CallGraphs
