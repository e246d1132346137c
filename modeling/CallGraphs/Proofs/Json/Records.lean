import CallGraphs.Json.Record
import Mathlib.Data.List.Nodup

/-!
# Records that are read back

A record is read back from what was written, by name or by position: each field
is found under its name (`Json.fields?_record`), and a reader of a field takes
what the writer of the field gives (`Json.asList?_list`, `Json.asOption?_option`
and the like).  A choice of records is read back by its kind
(`Json.choice?_choice`), as long as no part of it is unusable.
-/

namespace CallGraphs

namespace Json

/-! ## Values -/

@[simp]
theorem asString?_string (text : String) : asString? (string text) = some text := rfl

@[simp]
theorem asBool?_bool (value : Bool) : asBool? (bool value) = some value := rfl

theorem below?_natural {limit n : Nat} (h : n < limit) : below? limit (natural n) = some n :=
  if_pos h

/-- A list is read item by item. -/
theorem mapM_map {α β γ : Type} {read : β → Option γ} {encode : α → β} {decode : α → γ}
    {l : List α} (h : ∀ x ∈ l, read (encode x) = some (decode x)) :
    (l.map encode).mapM read = some (l.map decode) := by
  induction l with
  | nil => rfl
  | cons x l ih =>
      have hrest := ih fun y hy => h y (List.mem_cons_of_mem _ hy)
      rw [List.map_cons, List.mapM_cons, h x List.mem_cons_self, hrest]
      rfl

theorem asList?_list {α : Type} {item : Json → Option α} {encode : α → Json} {l : List α}
    (h : ∀ x ∈ l, item (encode x) = some x) : asList? item (list encode l) = some l := by
  have hread : (l.map encode).mapM item = some (l.map id) := mapM_map h
  rwa [List.map_id] at hread

@[simp]
theorem asList?_strings (l : List String) : asList? asString? (strings l) = some l :=
  asList?_list fun _ _ => rfl

theorem asOption?_option {α : Type} {value : Json → Option α} {encode : α → Json} {o : Option α}
    (hnull : ∀ x, encode x ≠ null) (h : ∀ x ∈ o, value (encode x) = some x) :
    asOption? value (option encode o) = some o := by
  cases o with
  | none => rfl
  | some x =>
      show asOption? value (encode x) = some (some x)
      rw [asOption?]
      · rw [h x rfl]
        rfl
      · exact hnull x

@[simp]
theorem asOption?_string (text : String) :
    asOption? asString? (string text) = some (some text) := rfl

@[simp]
theorem asOption?_optionString (o : Option String) :
    asOption? asString? (option string o) = some o :=
  asOption?_option (fun _ => Json.noConfusion) fun _ _ => rfl

/-! ## Records -/

attribute [simp] Fields.get Fields.getD Fields.list Fields.option Fields.flag

/-- What follows a field reads on with the field.  Long records are simplified by this rule and not
by those for `Option.bind`, which go through all that follows twice at every field. -/
theorem some_bind {α β : Type} (a : α) (f : α → Option β) : (some a >>= f) = f a := rfl

@[simp]
theorem lookup_cons_of_ne {name other : String} (h : name ≠ other) (j : Json)
    (members : List (String × Json)) :
    ((other, j) :: members).lookup name = members.lookup name := by
  rw [List.lookup_cons, beq_false_of_ne h]

/-- An object gives the fields that it has members for. -/
@[simp]
theorem fields?_object {members : List (String × Json)} {names : List String}
    (hnodup : (members.map (·.1)).Nodup) :
    (object members).fields? names = some (members.lookup ·) :=
  if_pos (hnodup.filter _)

/-- In either layout a record gives all its fields. -/
@[simp]
theorem fields?_record (layout : Layout) {fields : List (String × Json)} {names : List String}
    (hnames : fields.map (·.1) = names) (hnodup : names.Nodup) :
    (layout.record fields).fields? names = some (fields.lookup ·) := by
  subst hnames
  cases layout with
  | named => exact fields?_object hnodup
  | positional =>
      have hzip : (fields.map (·.1)).zip (fields.map (·.2)) = fields := by
        simp [List.zip_map']
      show fieldsIn? .plain (fields.map (·.1)) (array (fields.map (·.2))) = _
      simp [fieldsIn?, hzip]

theorem record_ne_null (layout : Layout) (fields : List (String × Json)) :
    layout.record fields ≠ null := by
  cases layout with
  | named => exact Json.noConfusion
  | positional => exact Json.noConfusion

/-! ## Choices -/

attribute [simp] isSound areSoundMembers

theorem choice_ne_null (kind : String) (fields : List (String × Json)) :
    choice kind fields ≠ null :=
  Json.noConfusion

@[simp]
theorem isSound_optionString (o : Option String) : (option string o).isSound = true := by
  cases o with
  | none => rfl
  | some text => rfl

/-- A choice is nested one deeper than its fields. -/
theorem nesting_choice (kind : String) (fields : List (String × Json)) :
    (choice kind fields).nesting = nestingMembers fields + 1 := by
  simp [choice, nesting, nestingMembers]

/-- A choice of usable fields gives its kind and its fields. -/
@[simp]
theorem choice?_choice {kinds : List String} {inner : Bool} {kind : String}
    {fields : List (String × Json)} (hfree : ∀ p ∈ fields, p.1 ≠ "kind")
    (hsound : inner = true ∨ areSoundMembers fields = true) :
    (choice kind fields).choice? kinds inner = some (kind, object fields) := by
  have husable : (!inner && !(object (("kind", string kind) :: fields)).isSound) = false := by
    rcases hsound with rfl | hsound
    · rfl
    · simp [hsound]
  have hkinds : fields.filter (·.1 = "kind") = [] :=
    List.filter_eq_nil_iff.mpr fun p hp => by simpa using hfree p hp
  have hrest : fields.filter (·.1 ≠ "kind") = fields :=
    List.filter_eq_self.mpr fun p hp => by simpa using hfree p hp
  rw [choice, choice?, husable]
  simp only [List.filter_cons, hkinds, hrest]
  simp [kind?]

end Json

end CallGraphs
