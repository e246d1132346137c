import CallGraphs.Classes.Unions
import CallGraphs.Proofs.Classes.Inheritance
import Mathlib.Logic.Function.Iterate

/-!
# Shared storage

Which slots are one place, said of the class records.  The pointer fields of a union
overlay each other, and so do fields that it does not list
(`ClassTable.PointsInUnion`); with them the elements of arrays in them, and of arrays
of arrays (`ClassTable.SharesStorage`).

Sharing is symmetric and transitive, slots that share have one canonical slot
(`ClassTable.SharesStorage.canonical_eq`), and a slot that is not its own canonical
slot shares with that (`ClassTable.canonical_eq_self_or_shares`).  All that
`ClassTable.canonical_exact` says follows from these.

No class may list two fields of one name: a field is looked up by its name, and only
the first one of that name is found.
-/

namespace CallGraphs

/-- No class of the table lists two fields of one name. -/
def ClassTable.FieldsDistinct (t : ClassTable) : Prop :=
  ∀ c ∈ t.records, (c.fields.map (·.name)).Nodup

instance (t : ClassTable) : Decidable t.FieldsDistinct :=
  inferInstanceAs (Decidable (∀ c ∈ t.records, (c.fields.map (·.name)).Nodup))

/-- A class lists a field as one that holds a pointer, or does not list it. -/
def ClassRecord.MayPoint (c : ClassRecord) (field : String) : Prop :=
  (∃ f ∈ c.fields, f.name = field ∧ f.isPointer = true) ∨ ∀ f ∈ c.fields, f.name ≠ field

namespace ClassTable

/-- A field of a union that has a pointer field may hold a pointer itself. -/
def PointsInUnion (t : ClassTable) (className field : String) : Prop :=
  ∃ c, t.class? className = some c ∧ c.isUnion = true ∧ (∃ f ∈ c.fields, f.isPointer = true) ∧
    c.MayPoint field

/-! ## Fields of unions -/

section Fields

variable {t : ClassTable} {className field first : String} {c : ClassRecord}

/-- A union is represented by the first pointer field that it lists. -/
theorem unionField?_eq_some_iff : t.unionField? className = some first ↔
    ∃ c, t.class? className = some c ∧ c.isUnion = true ∧
      ∃ f, c.fields.find? (·.isPointer) = some f ∧ f.name = first := by
  rw [unionField?]
  cases hc : t.class? className with
  | none => simp
  | some c =>
      by_cases hunion : c.isUnion = true
      · simp [hunion]
      · simp [hunion]

theorem mayHoldPointer_iff (hdistinct : t.FieldsDistinct) (hc : t.class? className = some c) :
    t.mayHoldPointer className field = true ↔ c.MayPoint field := by
  rw [mayHoldPointer, hc, Option.bind_some]
  cases hfield : c.field? field with
  | none =>
      have hnone : ∀ f ∈ c.fields, f.name ≠ field := by
        simpa using List.find?_eq_none.mp hfield
      exact iff_of_true rfl (Or.inr hnone)
  | some f =>
      have hmem : f ∈ c.fields := List.mem_of_find?_eq_some hfield
      have hname : f.name = field := by simpa using List.find?_some hfield
      constructor
      · intro hpointer
        exact Or.inl ⟨f, hmem, hname, hpointer⟩
      · rintro (⟨g, hg, hgname, hpointer⟩ | hnone)
        · have hsame : g = f := List.inj_on_of_nodup_map (hdistinct c (class?_eq_some hc).1) hg hmem
            (hgname.trans hname.symm)
          exact hsame ▸ hpointer
        · exact absurd hname (hnone f hmem)

theorem PointsInUnion.exists_unionField? (h : t.PointsInUnion className field) :
    ∃ first, t.unionField? className = some first := by
  obtain ⟨c, hc, hunion, ⟨f, hf, hpointer⟩, -⟩ := h
  obtain ⟨g, hg⟩ : ∃ g, c.fields.find? (·.isPointer) = some g :=
    Option.isSome_iff_exists.mp (List.find?_isSome.mpr ⟨f, hf, hpointer⟩)
  exact ⟨g.name, unionField?_eq_some_iff.mpr ⟨c, hc, hunion, g, hg, rfl⟩⟩

/-- The field that represents a union is one that holds a pointer. -/
theorem pointsInUnion_unionField? (h : t.unionField? className = some first) :
    t.PointsInUnion className first := by
  obtain ⟨c, hc, hunion, f, hf, hname⟩ := unionField?_eq_some_iff.mp h
  have hmem := List.mem_of_find?_eq_some hf
  have hpointer := List.find?_some hf
  exact ⟨c, hc, hunion, ⟨f, hmem, hpointer⟩, Or.inl ⟨f, hmem, hname, hpointer⟩⟩

theorem pointsInUnion_iff (hdistinct : t.FieldsDistinct)
    (h : t.unionField? className = some first) :
    t.PointsInUnion className field ↔ t.mayHoldPointer className field = true := by
  obtain ⟨c, hc, hunion, hpointer, -⟩ := pointsInUnion_unionField? h
  rw [mayHoldPointer_iff hdistinct hc]
  constructor
  · rintro ⟨c', hc', -, -, hmay⟩
    obtain rfl := Option.some.inj (hc'.symm.trans hc)
    exact hmay
  · intro hmay
    exact ⟨c, hc, hunion, hpointer, hmay⟩

end Fields

/-! ## Slots -/

/-- Two slots are one place: fields of one union that may hold pointers, or the elements of arrays
that are one place. -/
inductive SharesStorage (t : ClassTable) : Slot → Slot → Prop
  | fields {className first second : String} : t.PointsInUnion className first →
      t.PointsInUnion className second →
      t.SharesStorage (.field className first) (.field className second)
  | elements {a b : Slot} : t.SharesStorage a b → t.SharesStorage (.element a) (.element b)

namespace SharesStorage

variable {t : ClassTable} {a b c : Slot}

theorem symm (h : t.SharesStorage a b) : t.SharesStorage b a := by
  induction h with
  | fields hfirst hsecond => exact .fields hsecond hfirst
  | elements _ ih => exact .elements ih

theorem trans (hab : t.SharesStorage a b) (hbc : t.SharesStorage b c) : t.SharesStorage a c := by
  induction hab generalizing c with
  | fields hfirst _ =>
      cases hbc with
      | fields _ hthird => exact .fields hfirst hthird
  | elements _ ih =>
      cases hbc with
      | elements hbc => exact .elements (ih hbc)

theorem canonical_eq (hdistinct : t.FieldsDistinct) (h : t.SharesStorage a b) :
    t.canonical a = t.canonical b := by
  induction h with
  | fields hfirst hsecond =>
      obtain ⟨field, hfield⟩ := hfirst.exists_unionField?
      simp only [canonical, hfield, (pointsInUnion_iff hdistinct hfield).mp hfirst,
        (pointsInUnion_iff hdistinct hfield).mp hsecond, if_true]
  | elements _ ih => rw [canonical, canonical, ih]

/-- Slots that share storage are fields of one union, or elements of arrays nested equally deep in
such fields. -/
theorem iff_fields : t.SharesStorage a b ↔ ∃ depth className first second,
    a = Slot.element^[depth] (.field className first) ∧
      b = Slot.element^[depth] (.field className second) ∧
      t.PointsInUnion className first ∧ t.PointsInUnion className second := by
  constructor
  · intro h
    induction h with
    | fields hfirst hsecond => exact ⟨0, _, _, _, rfl, rfl, hfirst, hsecond⟩
    | elements _ ih =>
        obtain ⟨depth, className, first, second, rfl, rfl, hfirst, hsecond⟩ := ih
        refine ⟨depth + 1, className, first, second, ?_, ?_, hfirst, hsecond⟩
        · rw [Function.iterate_succ_apply']
        · rw [Function.iterate_succ_apply']
  · rintro ⟨depth, className, first, second, rfl, rfl, hfirst, hsecond⟩
    induction depth with
    | zero => exact .fields hfirst hsecond
    | succ depth ih =>
        rw [Function.iterate_succ_apply', Function.iterate_succ_apply']
        exact .elements ih

end SharesStorage

/-- A slot stands for itself, or it shares storage with the slot that stands for it. -/
theorem canonical_eq_self_or_shares {t : ClassTable} (hdistinct : t.FieldsDistinct) (slot : Slot) :
    t.canonical slot = slot ∨ t.SharesStorage slot (t.canonical slot) := by
  induction slot with
  | field className field =>
      rw [canonical]
      split
      · next first hfirst =>
        split
        · next hmay =>
          exact Or.inr (.fields ((pointsInUnion_iff hdistinct hfirst).mpr hmay)
            (pointsInUnion_unionField? hfirst))
        · exact Or.inl rfl
      · exact Or.inl rfl
  | element array ih =>
      rw [canonical]
      exact ih.imp (congrArg Slot.element) .elements
  | _ => exact Or.inl rfl

/-! ## Main statement -/

/-- Where no class lists a field twice, a canonical slot stands for itself, and two slots have one
canonical slot exactly if they are equal or are, inside the same number of arrays, fields of one
union with a pointer field, each of them a pointer field or not listed. -/
theorem canonical_exact {t : ClassTable} (hdistinct : t.FieldsDistinct) :
    (∀ slot, t.canonical (t.canonical slot) = t.canonical slot) ∧
      ∀ a b, t.canonical a = t.canonical b ↔ a = b ∨ ∃ depth className first second,
        a = Slot.element^[depth] (.field className first) ∧
          b = Slot.element^[depth] (.field className second) ∧
          t.PointsInUnion className first ∧ t.PointsInUnion className second := by
  refine ⟨fun slot => ?_, fun a b => ?_⟩
  · rcases canonical_eq_self_or_shares hdistinct slot with hself | hshares
    · rw [hself, hself]
    · exact (hshares.canonical_eq hdistinct).symm
  rw [← SharesStorage.iff_fields]
  constructor
  · intro h
    have ha := canonical_eq_self_or_shares hdistinct a
    have hb := canonical_eq_self_or_shares hdistinct b
    rw [← h] at hb
    rcases ha with ha | ha
    · rw [ha] at hb
      exact hb.imp id SharesStorage.symm
    · rcases hb with hb | hb
      · rw [hb] at ha
        exact Or.inr ha
      · exact Or.inr (ha.trans hb.symm)
  · rintro (rfl | hshares)
    · rfl
    · exact hshares.canonical_eq hdistinct

/-- A union of two callbacks and a number. -/
def payload : ClassTable := ofRecords
  [{ key := "Payload", isUnion := true
     fields := [{ name := "code" }, { name := "onData", isPointer := true },
       { name := "onEnd", isPointer := true }] }]

/-- In an array of such unions, the last callback and a field that is not listed are one place; the
number keeps its own. -/
theorem payload_canonical : payload.FieldsDistinct ∧
    payload.canonical (.element (.field "Payload" "onEnd")) =
      payload.canonical (.element (.field "Payload" "onError")) ∧
    payload.canonical (.element (.field "Payload" "code")) =
      .element (.field "Payload" "code") := by
  have hdistinct : payload.FieldsDistinct := by decide
  refine ⟨hdistinct, ((canonical_exact hdistinct).2 _ _).mpr (Or.inr ⟨1, "Payload", "onEnd",
    "onError", rfl, rfl, ?_, ?_⟩), by decide⟩
  · exact ⟨_, rfl, rfl, ⟨_, List.mem_cons_of_mem _ List.mem_cons_self, rfl⟩, Or.inl (by decide)⟩
  · exact ⟨_, rfl, rfl, ⟨_, List.mem_cons_of_mem _ List.mem_cons_self, rfl⟩, Or.inr (by decide)⟩

end ClassTable

end CallGraphs
