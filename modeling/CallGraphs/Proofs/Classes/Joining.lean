import CallGraphs.Proofs.Classes.Inheritance
import Mathlib.Data.List.Induction

/-!
# Joined records

A table has one record for each class, in the order in which the classes were
first seen (`ClassTable.keys_ofRecords`), and that is the first record of the
class after it absorbed the later ones (`ClassTable.class?_ofRecords_eq`).  What
such a record says is read off the records it came from: the bases that the first
one lists stay as they are, and a later one adds those that are new, each once
(`ClassRecord.baseNames_joined`); the destructor is the first one declared.
-/

namespace CallGraphs

/-! ## Appending what is new -/

/-- Elements that are told apart by name: the names of the second list are appended, each once and
only if the first list does not have it. -/
theorem map_appendNew {α β : Type} [DecidableEq β] (name : α → β) :
    ∀ (l more : List α), (appendNew (fun a b => name a = name b) l more).map name =
      l.map name ++ ((more.map name).filter (· ∉ l.map name)).eraseDups
  | l, [] => by simp [appendNew]
  | l, x :: more => by
      have hknown : l.any (fun b => decide (name x = name b)) = true ↔ name x ∈ l.map name := by
        simp only [List.any_eq_true, decide_eq_true_eq, List.mem_map]
        exact exists_congr fun _ => and_congr_right fun _ => eq_comm
      rw [appendNew, List.foldl_cons, ← appendNew, List.map_cons]
      by_cases hx : name x ∈ l.map name
      · rw [if_pos (hknown.mpr hx), map_appendNew, List.filter_cons_of_neg (by simpa using hx)]
      · rw [if_neg (mt hknown.mp hx), map_appendNew, List.filter_cons_of_pos (by simpa using hx),
          List.eraseDups_cons, List.filter_filter, List.map_append, List.append_assoc]
        simp [Bool.and_comm, beq_eq_decide]

theorem appendNew_append {α : Type} (same : α → α → Bool) (l more other : List α) :
    appendNew same (appendNew same l more) other = appendNew same l (more ++ other) := by
  simp only [appendNew, List.foldl_append]

theorem mem_map_appendNew {α β : Type} [DecidableEq β] {name : α → β} {l more : List α} {n : β} :
    n ∈ (appendNew (fun a b => name a = name b) l more).map name ↔
      n ∈ l.map name ∨ n ∈ more.map name := by
  rw [map_appendNew, List.mem_append, List.mem_eraseDups, List.mem_filter, decide_eq_true_iff]
  tauto

/-- If names tell all elements apart, nothing that is appended is left out. -/
theorem mem_appendNew_iff {α β : Type} [DecidableEq β] {name : α → β} {l more : List α} {x : α}
    (hname : ∀ y ∈ l ++ more, ∀ z ∈ l ++ more, name y = name z → y = z) :
    x ∈ appendNew (fun a b => name a = name b) l more ↔ x ∈ l ∨ x ∈ more := by
  refine ⟨mem_of_mem_appendNew, fun hx => ?_⟩
  have hnames : name x ∈ (appendNew (fun a b => name a = name b) l more).map name :=
    mem_map_appendNew.mpr (hx.imp List.mem_map_of_mem List.mem_map_of_mem)
  obtain ⟨y, hy, hyx⟩ := List.mem_map.mp hnames
  have hboth := List.mem_append.mpr (mem_of_mem_appendNew hy)
  exact hname y hboth x (List.mem_append.mpr hx) hyx ▸ hy

namespace ClassRecord

/-! ## One class -/

/-- What the records of a class come to: the first one absorbs the others. -/
def joined (first : ClassRecord) (rest : List ClassRecord) : ClassRecord := rest.foldl absorb first

theorem joined_cons (first next : ClassRecord) (rest : List ClassRecord) :
    first.joined (next :: rest) = (first.absorb next).joined rest := rfl

/-- What several records of a class come to; nothing if there is none. -/
def joined? : List ClassRecord → Option ClassRecord
  | [] => none
  | first :: rest => some (first.joined rest)

theorem joined?_concat : ∀ (rs : List ClassRecord) (r : ClassRecord),
    joined? (rs ++ [r]) = some (((joined? rs).map (·.absorb r)).getD r)
  | [], _ => rfl
  | first :: rest, r => congrArg some (List.foldl_concat absorb first r rest)

/-- A list that every absorption appends to, if it is new, holds what the records list. -/
theorem joined_appends {α : Type} (same : α → α → Bool) (field : ClassRecord → List α)
    (habsorb : ∀ c r : ClassRecord, field (c.absorb r) = appendNew same (field c) (field r)) :
    ∀ (first : ClassRecord) (rest : List ClassRecord),
      field (first.joined rest) = appendNew same (field first) (rest.flatMap field)
  | first, [] => rfl
  | first, next :: rest => by
      rw [joined_cons, joined_appends same field habsorb, habsorb, appendNew_append,
        List.flatMap_cons]

/-- The bases of a class: those of its first record as they stand, then those that later records
add, each once. -/
theorem baseNames_joined (first : ClassRecord) (rest : List ClassRecord) :
    (first.joined rest).baseNames = first.baseNames ++
      ((rest.flatMap (·.baseNames)).filter (· ∉ first.baseNames)).eraseDups := by
  have hbases := joined_appends _ (·.bases) (fun _ _ => rfl) first rest
  simp only [baseNames, hbases]
  rw [map_appendNew, List.map_flatMap]
  rfl

theorem mem_baseNames_joined {first : ClassRecord} {rest : List ClassRecord} {base : String} :
    base ∈ (first.joined rest).baseNames ↔ ∃ r ∈ first :: rest, base ∈ r.baseNames := by
  rw [baseNames_joined]
  simp only [List.mem_append, List.mem_eraseDups, List.mem_filter, List.mem_flatMap,
    decide_eq_true_eq, List.mem_cons, exists_eq_or_imp]
  tauto

theorem destructor_joined : ∀ (first : ClassRecord) (rest : List ClassRecord),
    (first.joined rest).destructor = (first :: rest).findSome? (·.destructor)
  | first, [] => by cases h : first.destructor <;> simp [joined, h]
  | first, next :: rest => by
      rw [joined_cons, destructor_joined, List.findSome?_cons, List.findSome?_cons,
        List.findSome?_cons]
      cases hfirst : first.destructor <;> simp [absorb, hfirst]

end ClassRecord

namespace ClassTable

/-! ## All classes -/

theorem ofRecords_concat (rs : List ClassRecord) (r : ClassRecord) :
    ofRecords (rs ++ [r]) = (ofRecords rs).add r := List.foldl_concat _ _ _ _

/-- Classes are kept in the order in which they were first seen. -/
theorem keys_ofRecords (rs : List ClassRecord) :
    (ofRecords rs).keys = (rs.map (·.key)).eraseDups := by
  induction rs using List.reverseRecOn with
  | nil => rfl
  | append_singleton rs r ih =>
      rw [ofRecords_concat, keys_add, ih, List.map_append, List.eraseDups_append]
      by_cases hr : r.key ∈ rs.map (·.key)
      · rw [if_pos (List.mem_eraseDups.mpr hr)]
        simp [List.removeAll, List.mem_map.mp hr]
      · rw [if_neg (mt List.mem_eraseDups.mp hr)]
        simp [List.removeAll, mt List.mem_map.mpr hr, List.eraseDups_cons]

theorem mem_keys_ofRecords {rs : List ClassRecord} {key : String} :
    key ∈ (ofRecords rs).keys ↔ ∃ r ∈ rs, r.key = key := by
  rw [keys_ofRecords, List.mem_eraseDups, List.mem_map]

/-- Absorbing keeps keys, so it does not matter for which record of a class is found. -/
theorem find?_map_absorb (records : List ClassRecord) (r : ClassRecord) (key : String) :
    (records.map fun c => if c.key = r.key then c.absorb r else c).find? (·.key = key) =
      (records.find? (·.key = key)).map fun c => if c.key = r.key then c.absorb r else c := by
  have hkeys : ((fun c : ClassRecord => decide (c.key = key)) ∘
      fun c => if c.key = r.key then c.absorb r else c) = fun c => decide (c.key = key) := by
    funext c
    by_cases hc : c.key = r.key <;> simp [hc]
  rw [List.find?_map, hkeys]

/-- What is known of a class after one more record. -/
theorem class?_add (t : ClassTable) (r : ClassRecord) (key : String) :
    (t.add r).class? key =
      if r.key = key then some (((t.class? key).map (·.absorb r)).getD r) else t.class? key := by
  by_cases hknown : r.key ∈ t.keys
  · rw [add, if_pos (contains_iff.mpr hknown), class?, find?_map_absorb, ← class?]
    cases hc : t.class? key with
    | none =>
        have hr : r.key ≠ key := fun hr => class?_eq_none_iff.mp hc (hr ▸ hknown)
        simp [hr]
    | some c => by_cases hr : r.key = key <;> simp [(class?_eq_some hc).2, hr, Ne.symm]
  · rw [add, if_neg (mt contains_iff.mp hknown), class?, List.find?_append, ← class?]
    by_cases hr : r.key = key
    · subst hr
      simp [class?_eq_none_iff.mpr hknown]
    · simp [hr]

/-- The record of a class is made of its records, in the order in which they come. -/
theorem class?_ofRecords_eq (rs : List ClassRecord) (key : String) :
    (ofRecords rs).class? key = ClassRecord.joined? (rs.filter (·.key = key)) := by
  induction rs using List.reverseRecOn with
  | nil => rfl
  | append_singleton rs r ih =>
      rw [ofRecords_concat, class?_add, ih, List.filter_append]
      by_cases hr : r.key = key
      · rw [if_pos hr, List.filter_cons_of_pos (by simpa using hr), List.filter_nil,
          ClassRecord.joined?_concat]
      · rw [if_neg hr, List.filter_cons_of_neg (by simpa using hr), List.filter_nil,
          List.append_nil]

end ClassTable

end CallGraphs
