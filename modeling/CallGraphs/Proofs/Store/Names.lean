import CallGraphs.Proofs.Store.Rows
import CallGraphs.Store.Query
import Mathlib

/-!
# What a name stands for

A name is meant for a key, or else for a readable name.  The store looks a readable
name up as a search pattern, and patterns say less than they spell.  How patterns are
compared with texts is not the store's own; all that is used of it is what is written
about it (`Like.Documented`).

* A pattern matches the texts that its pieces spell out one after the other
  (`Wildcard.isMatch_iff_spells`).  Every pattern that is tried matches itself
  (`Like.spells_self`).
* A name stands for the function that has it for its key.  Where there is none it
  stands for the first function by key that it matches as a pattern, in the key or
  in the readable name (`StoredGraph.resolve_eq_ok_iff`).
* So a name is resolved as it is meant exactly if it is a key, or if the first
  function that it matches has it for its readable name
  (`StoredGraph.resolvesExactly_iff`).  It need not be: `_` matches any character and
  letters match in either case.
-/

namespace CallGraphs

/-! ## Patterns -/

namespace Wildcard

/-- The pieces spell out a text: a run as any characters in a row, every other piece as one
character that it accepts. -/
inductive Spells : List Wildcard → List Char → Prop
  | done : Spells [] []
  | skip {pieces : List Wildcard} {text : List Char} :
      Spells pieces text → Spells (run :: pieces) text
  | more {pieces : List Wildcard} {text : List Char} (c : Char) :
      Spells (run :: pieces) text → Spells (run :: pieces) (c :: text)
  | one {accepts : Char → Bool} {pieces : List Wildcard} {text : List Char} {c : Char} :
      accepts c = true → Spells pieces text → Spells (one accepts :: pieces) (c :: text)

theorem isMatch_of_spells {pieces : List Wildcard} {text : List Char} (h : Spells pieces text) :
    isMatch pieces text = true := by
  induction h with
  | done => rfl
  | @skip pieces text _ ih =>
      cases text with
      | nil => rw [isMatch_run_nil, ih]
      | cons c text => rw [isMatch_run_cons, ih, Bool.true_or]
  | more c _ ih => rw [isMatch_run_cons, ih, Bool.or_true]
  | one haccepts _ ih => rw [isMatch_one_cons, haccepts, ih, Bool.true_and]

theorem spells_of_isMatch {pieces : List Wildcard} {text : List Char}
    (h : isMatch pieces text = true) : Spells pieces text := by
  induction pieces generalizing text with
  | nil =>
      rw [isMatch_nil, List.isEmpty_iff] at h
      exact h ▸ .done
  | cons piece pieces ih =>
      -- a run takes one character after the other, so the text is taken apart too
      induction text with
      | nil =>
          cases piece with
          | run => exact .skip (ih (isMatch_run_nil pieces ▸ h))
          | one accepts => exact absurd h (by simp [isMatch_one_nil])
      | cons c text ihtext =>
          cases piece with
          | run =>
              rw [isMatch_run_cons, Bool.or_eq_true] at h
              rcases h with h | h
              · exact .skip (ih h)
              · exact .more c (ihtext h)
          | one accepts =>
              rw [isMatch_one_cons, Bool.and_eq_true] at h
              exact .one h.1 (ih h.2)

theorem isMatch_iff_spells {pieces : List Wildcard} {text : List Char} :
    isMatch pieces text = true ↔ Spells pieces text :=
  ⟨spells_of_isMatch, isMatch_of_spells⟩

end Wildcard

namespace Like

/-- A pattern, read up to its first NUL, spells out a text up to its first NUL. -/
def Spells (pattern text : String) : Prop :=
  Wildcard.Spells ((visible pattern).map piece) (visible text)

theorem isMatch_iff_spells {pattern text : String} :
    isMatch pattern text = true ↔ isTooLong pattern = false ∧ Spells pattern text := by
  rw [isMatch, Bool.and_eq_true, Wildcard.isMatch_iff_spells, Bool.not_eq_true', Spells]

/-- Every character stands for itself among others. -/
theorem spells_self (text : String) : Spells text text := by
  rw [Spells]
  induction visible text with
  | nil => exact .done
  | cons c rest ih =>
      rw [List.map_cons, piece]
      split
      · exact .more c (.skip ih)
      · split
        · exact .one rfl ih
        · exact .one (by simp) ih

/-- What is written about comparing patterns with texts: a pattern that is too long matches nothing,
and any other matches what it spells out. -/
structure Documented (like : String → String → Bool) : Prop where
  tooLong : ∀ {pattern} text, isTooLong pattern = true → like pattern text = false
  spelled : ∀ {pattern} text, isTooLong pattern = false →
    (like pattern text = true ↔ Spells pattern text)

theorem documented_isMatch : Documented isMatch where
  tooLong text hlong := by
    rw [isMatch, hlong]
    rfl
  spelled text hlength := by
    rw [isMatch_iff_spells]
    exact and_iff_right hlength

theorem Documented.iff {like : String → String → Bool} (hlike : Documented like)
    {pattern text : String} :
    like pattern text = true ↔ isTooLong pattern = false ∧ Spells pattern text := by
  cases hlength : isTooLong pattern with
  | true => simp [hlike.tooLong text hlength]
  | false => simp [hlike.spelled text hlength]

end Like

/-! ## Names -/

namespace StoredGraph

/-- The functions that can be read, by key. -/
def stored (s : StoredGraph) : List Function :=
  (Row.orderBy ["key"] s.functions).filterMap fun row =>
    (Function.ofRow (row.select Function.columns)).toOption

/-- Some row has this key. -/
def HasKey (s : StoredGraph) (key : FunctionKey) : Prop :=
  ∃ row ∈ s.functions, row.column "key" = .text key

/-- A name, taken for a pattern, spells out the key or the readable name of a function; patterns
that are too long are not tried. -/
def Suggests (name : String) (f : Function) : Prop :=
  Like.isTooLong name = false ∧
    (Like.Spells name f.key ∨ ∃ readable, f.displayName = some readable ∧ Like.Spells name readable)

/-- The first function by key that a name suggests. -/
def FirstSuggested (s : StoredGraph) (name : String) (f : Function) : Prop :=
  ∃ before after, s.stored = before ++ f :: after ∧ Suggests name f ∧
    ∀ g ∈ before, ¬ Suggests name g

/-- A name is resolved as it is meant: to the function that has it for its key, else to one that has
it for its readable name, and else to none. -/
structure ResolvesExactly (like : String → String → Bool) (s : StoredGraph) (name : String) :
    Prop where
  byKey : (∃ f ∈ s.stored, f.key = name) →
    ∃ f ∈ s.stored, f.key = name ∧ s.resolve like name = .ok f
  byName : (∀ f ∈ s.stored, f.key ≠ name) → (∃ f ∈ s.stored, f.displayName = some name) →
    ∃ f ∈ s.stored, f.displayName = some name ∧ s.resolve like name = .ok f
  otherwise : (∀ f ∈ s.stored, f.key ≠ name ∧ f.displayName ≠ some name) →
    s.resolve like name = .error (.functionNotFound name)

/-- A search pattern matches the key or the readable name of a function. -/
def nameMatches (like : String → String → Bool) (pattern : String) (f : Function) : Bool :=
  like pattern f.key || f.displayName.any (like pattern)

variable {like : String → String → Bool} {s : StoredGraph} {name : String} {f : Function}

/-! ### Functions by name -/

/-- Key and readable name of a function stand in its row. -/
theorem columns_of_ofRow {row : Row} (h : Function.ofRow (row.select Function.columns) = .ok f) :
    row.column "key" = .text f.key ∧ row.column "display_name" = .ofText? f.displayName := by
  rw [Function.ofRow] at h
  obtain ⟨key, hkey, h⟩ := bind_eq_ok.mp h
  obtain ⟨displayName, hname, h⟩ := bind_eq_ok.mp h
  iterate 8 obtain ⟨_, -, h⟩ := bind_eq_ok.mp h
  obtain rfl := Except.ok.inj h
  exact ⟨ColumnValue.eq_text_of_asText? (Row.read_of_get rfl hkey),
    ColumnValue.eq_ofText?_of_asOption? (Row.read_of_get rfl hname)⟩

theorem mem_stored_iff : f ∈ s.stored ↔
    ∃ row ∈ s.functions, Function.ofRow (row.select Function.columns) = .ok f := by
  have hread : ∀ r : Except DatabaseError Function, r.toOption = some f ↔ r = .ok f := by
    rintro (e | g) <;> simp [Except.toOption]
  simp only [stored, List.mem_filterMap, Row.orderBy, List.mem_mergeSort, hread]

theorem nameMatches_iff_suggests (hlike : Like.Documented like) :
    nameMatches like name f = true ↔ Suggests name f := by
  rw [nameMatches, Bool.or_eq_true, hlike.iff, Suggests]
  cases f.displayName with
  | none => simp
  | some readable => simp [hlike.iff, and_or_left]

theorem columnMatches_of_ofRow {row : Row} (pattern : String)
    (h : Function.ofRow (row.select Function.columns) = .ok f) :
    (columnMatches like pattern "key" row || columnMatches like pattern "display_name" row) =
      nameMatches like pattern f := by
  obtain ⟨hkey, hname⟩ := columns_of_ofRow h
  rw [columnMatches, columnMatches, hkey, hname, nameMatches]
  cases f.displayName with
  | none => rfl
  | some readable => rfl

/-- What is found are the functions that can be read and match. -/
theorem findFunctions_eq (like : String → String → Bool) (s : StoredGraph) (pattern : String) :
    s.findFunctions like pattern = s.stored.filter (nameMatches like pattern) := by
  rw [findFunctions, stored, List.filterMap_filter, List.filter_filterMap]
  refine List.filterMap_congr fun row _ => ?_
  cases hread : Function.ofRow (row.select Function.columns) with
  | error e => exact ite_self none
  | ok g =>
      rw [columnMatches_of_ofRow pattern hread]
      rfl

theorem function?_eq_ok_none_iff : s.function? name = .ok none ↔ ¬ s.HasKey name := by
  rw [function?]
  cases hfind : s.functions.find? (·.column "key" = .text name) with
  | none =>
      refine iff_of_true rfl ?_
      rintro ⟨row, hrow, hkey⟩
      exact List.find?_eq_none.mp hfind row hrow (decide_eq_true hkey)
  | some row =>
      have hkey : row.column "key" = .text name := by simpa using List.find?_some hfind
      refine iff_of_false (fun h => ?_)
        (not_not.mpr ⟨row, List.mem_of_find?_eq_some hfind, hkey⟩)
      obtain ⟨f, -, h⟩ := bind_eq_ok.mp h
      cases h

theorem mem_stored_of_function? (h : s.function? name = .ok (some f)) :
    f ∈ s.stored ∧ f.key = name := by
  rw [function?] at h
  cases hfind : s.functions.find? (·.column "key" = .text name) with
  | none =>
      rw [hfind] at h
      cases h
  | some row =>
      rw [hfind] at h
      obtain ⟨g, hread, h⟩ := bind_eq_ok.mp h
      obtain rfl : g = f := Option.some.inj (Except.ok.inj h)
      refine ⟨mem_stored_iff.mpr ⟨row, List.mem_of_find?_eq_some hfind, hread⟩, ?_⟩
      have hkey : row.column "key" = .text name := by simpa using List.find?_some hfind
      exact ColumnValue.text.inj ((columns_of_ofRow hread).1.symm.trans hkey)

theorem key_ne_of_not_hasKey (h : ¬ s.HasKey name) (hf : f ∈ s.stored) : f.key ≠ name := by
  obtain ⟨row, hrow, hread⟩ := mem_stored_iff.mp hf
  rintro rfl
  exact h ⟨row, hrow, (columns_of_ofRow hread).1⟩

theorem firstSuggested_iff (hlike : Like.Documented like) :
    s.FirstSuggested name f ↔ (s.findFunctions like name).head? = some f := by
  rw [findFunctions_eq, List.head?_filter, List.find?_eq_some_iff_append]
  simp only [Bool.not_eq_true', ← Bool.not_eq_true, nameMatches_iff_suggests hlike]
  constructor
  · rintro ⟨before, after, hsplit, hf, hbefore⟩
    exact ⟨hf, before, after, hsplit, hbefore⟩
  · rintro ⟨hf, before, after, hsplit, hbefore⟩
    exact ⟨before, after, hsplit, hf, hbefore⟩

theorem FirstSuggested.mem_stored (h : s.FirstSuggested name f) : f ∈ s.stored := by
  obtain ⟨before, after, hsplit, -, -⟩ := h
  exact hsplit ▸ by simp

/-- Some function is suggested first, if any is. -/
theorem exists_firstSuggested (hf : f ∈ s.stored) (hsuggests : Suggests name f) :
    ∃ first, s.FirstSuggested name first := by
  have hfound : f ∈ s.findFunctions Like.isMatch name := by
    rw [findFunctions_eq]
    exact List.mem_filter.mpr ⟨hf, (nameMatches_iff_suggests Like.documented_isMatch).mpr hsuggests⟩
  obtain ⟨first, rest, hcons⟩ := List.exists_cons_of_ne_nil (List.ne_nil_of_mem hfound)
  exact ⟨first, (firstSuggested_iff Like.documented_isMatch).mpr (by rw [hcons, List.head?_cons])⟩

/-- A readable name suggests the functions that have it, unless it is too long to be tried. -/
theorem suggests_of_displayName (hf : f.displayName = some name)
    (hlength : Like.isTooLong name = false) : Suggests name f :=
  ⟨hlength, Or.inr ⟨name, hf, Like.spells_self name⟩⟩

/-! ### What a name is resolved to -/

theorem resolve_of_key (h : s.function? name = .ok (some f)) : s.resolve like name = .ok f := by
  rw [resolve, h]
  rfl

theorem resolve_of_unreadable {d : DatabaseError} (h : s.function? name = .error d) :
    s.resolve like name = .error (.storage d) := by
  rw [resolve, h]
  rfl

/-- A name that is no key stands for the first function that it matches. -/
theorem resolve_of_no_key (h : s.function? name = .ok none) :
    s.resolve like name = ((s.findFunctions like name).head?.map Except.ok).getD
      (.error (.functionNotFound name)) := by
  rw [resolve, h]
  cases s.findFunctions like name with
  | nil => rfl
  | cons f rest => rfl

section
variable (hlike : Like.Documented like)
include hlike

theorem resolve_eq_ok_iff : s.resolve like name = .ok f ↔ s.function? name = .ok (some f) ∨
    ¬ s.HasKey name ∧ s.FirstSuggested name f := by
  rw [← function?_eq_ok_none_iff, firstSuggested_iff hlike]
  cases hkey : s.function? name with
  | error d => simp [resolve_of_unreadable hkey]
  | ok found =>
      cases found with
      | some g => simp [resolve_of_key hkey]
      | none =>
          rw [resolve_of_no_key hkey]
          cases (s.findFunctions like name).head? with
          | none => simp
          | some g => simp

theorem findFunctions_eq_nil_iff :
    s.findFunctions like name = [] ↔ ∀ f ∈ s.stored, ¬ Suggests name f := by
  simp only [findFunctions_eq, List.filter_eq_nil_iff, nameMatches_iff_suggests hlike]

theorem resolve_eq_error_iff {e : QueryError} : s.resolve like name = .error e ↔
    (∃ d, s.function? name = .error d ∧ e = .storage d) ∨
      ¬ s.HasKey name ∧ e = .functionNotFound name ∧ ∀ f ∈ s.stored, ¬ Suggests name f := by
  rw [← function?_eq_ok_none_iff, ← findFunctions_eq_nil_iff hlike]
  cases hkey : s.function? name with
  | error d =>
      simp only [resolve_of_unreadable hkey, Except.error.injEq, reduceCtorEq, false_and, or_false]
      exact ⟨fun h => ⟨d, rfl, h.symm⟩, fun ⟨_, hd, h⟩ => hd ▸ h.symm⟩
  | ok found =>
      cases found with
      | some g => simp [resolve_of_key hkey]
      | none =>
          rw [resolve_of_no_key hkey]
          cases s.findFunctions like name with
          | nil => simp [eq_comm]
          | cons g rest => simp

end

/-! ### Names that are resolved as they are meant -/

/-- A key that is read resolves as it is meant. -/
theorem resolvesExactly_of_key (h : s.function? name = .ok (some f)) :
    s.ResolvesExactly like name := by
  obtain ⟨hf, hkey⟩ := mem_stored_of_function? h
  exact {
    byKey := fun _ => ⟨f, hf, hkey, resolve_of_key h⟩
    byName := fun hnone => absurd hkey (hnone f hf)
    otherwise := fun hnone => absurd hkey (hnone f hf).1 }

/-- Nothing is resolved as it is meant when the row of the key cannot be read. -/
theorem not_resolvesExactly_of_unreadable {d : DatabaseError} (h : s.function? name = .error d) :
    ¬ s.ResolvesExactly like name := by
  have herror : ∀ f, s.resolve like name ≠ .ok f := by
    intro f hf
    cases (resolve_of_unreadable h).symm.trans hf
  intro hexact
  by_cases hkey : ∃ f ∈ s.stored, f.key = name
  · obtain ⟨f, -, -, hf⟩ := hexact.byKey hkey
    exact herror f hf
  · have hkey' : ∀ f ∈ s.stored, f.key ≠ name := fun f hf heq => hkey ⟨f, hf, heq⟩
    by_cases hname : ∃ f ∈ s.stored, f.displayName = some name
    · obtain ⟨f, -, -, hf⟩ := hexact.byName hkey' hname
      exact herror f hf
    · have hnone := hexact.otherwise fun f hf => ⟨hkey' f hf, fun heq => hname ⟨f, hf, heq⟩⟩
      cases (resolve_of_unreadable h).symm.trans hnone

section NoKey

variable (hlike : Like.Documented like) (hkey : ¬ s.HasKey name)
include hlike hkey

theorem resolve_of_firstSuggested (h : s.FirstSuggested name f) : s.resolve like name = .ok f :=
  (resolve_eq_ok_iff hlike).mpr (Or.inr ⟨hkey, h⟩)

theorem firstSuggested_of_resolve (h : s.resolve like name = .ok f) : s.FirstSuggested name f := by
  rcases (resolve_eq_ok_iff hlike).mp h with hfound | ⟨-, hfirst⟩
  · obtain ⟨hf, heq⟩ := mem_stored_of_function? hfound
    exact absurd heq (key_ne_of_not_hasKey hkey hf)
  · exact hfirst

theorem displayName_of_resolvesExactly (h : s.ResolvesExactly like name)
    (hfirst : s.FirstSuggested name f) : f.displayName = some name := by
  have hok := resolve_of_firstSuggested hlike hkey hfirst
  by_cases hname : ∃ g ∈ s.stored, g.displayName = some name
  · obtain ⟨g, -, hg, hresolve⟩ := h.byName (fun g hg => key_ne_of_not_hasKey hkey hg) hname
    cases hok.symm.trans hresolve
    exact hg
  · have hnone := h.otherwise fun g hg =>
      ⟨key_ne_of_not_hasKey hkey hg, fun heq => hname ⟨g, hg, heq⟩⟩
    cases hok.symm.trans hnone

/-- A name that is too long to be tried should not be a readable one. -/
theorem displayName_ne_of_resolvesExactly (h : s.ResolvesExactly like name)
    (hlong : Like.isTooLong name = true) : ∀ f ∈ s.stored, f.displayName ≠ some name := by
  intro f hf hname
  obtain ⟨g, -, -, hresolve⟩ :=
    h.byName (fun g hg => key_ne_of_not_hasKey hkey hg) ⟨f, hf, hname⟩
  obtain ⟨-, -, -, hsuggests, -⟩ := firstSuggested_of_resolve hlike hkey hresolve
  exact absurd (hsuggests.1.symm.trans hlong) (by decide)

theorem resolvesExactly_of_firstSuggested
    (hfirst : ∀ f, s.FirstSuggested name f → f.displayName = some name)
    (hlong : Like.isTooLong name = true → ∀ f ∈ s.stored, f.displayName ≠ some name) :
    s.ResolvesExactly like name where
  byKey := fun ⟨f, hf, heq⟩ => absurd heq (key_ne_of_not_hasKey hkey hf)
  byName := fun _ hname => by
    obtain ⟨f, hf, hname⟩ := hname
    have hlength : Like.isTooLong name = false :=
      Bool.eq_false_iff.mpr fun h => hlong h f hf hname
    obtain ⟨g, hg⟩ := exists_firstSuggested hf (suggests_of_displayName hname hlength)
    exact ⟨g, hg.mem_stored, hfirst g hg, resolve_of_firstSuggested hlike hkey hg⟩
  otherwise := fun hnone => by
    refine (resolve_eq_error_iff hlike).mpr (Or.inr ⟨hkey, rfl, fun f hf hsuggests => ?_⟩)
    obtain ⟨g, hg⟩ := exists_firstSuggested hf hsuggests
    exact (hnone g hg.mem_stored).2 (hfirst g hg)

end NoKey

/-- When every row can be read, a key is looked up without an error, and it is found exactly if some
function has it. -/
theorem exists_function?_of_readable
    (hread : ∀ row ∈ s.functions, ∃ f, Function.ofRow (row.select Function.columns) = .ok f)
    (name : FunctionKey) :
    ∃ found, s.function? name = .ok found ∧ (found = none ↔ ∀ f ∈ s.stored, f.key ≠ name) := by
  cases hfound : s.function? name with
  | error d =>
      rw [function?] at hfound
      cases hfind : s.functions.find? (·.column "key" = .text name) with
      | none =>
          rw [hfind] at hfound
          cases hfound
      | some row =>
          obtain ⟨f, hf⟩ := hread row (List.mem_of_find?_eq_some hfind)
          simp only [hfind, hf] at hfound
          cases hfound
  | ok found =>
      refine ⟨found, rfl, ?_⟩
      cases found with
      | none => exact iff_of_true rfl fun f hf =>
          key_ne_of_not_hasKey (function?_eq_ok_none_iff.mp hfound) hf
      | some f =>
          obtain ⟨hf, hkey⟩ := mem_stored_of_function? hfound
          exact iff_of_false nofun fun hnone => hnone f hf hkey

/-- A name is taken for a key before it is taken for a pattern, and then stands for the first
function by key that it suggests.  It is resolved as it is meant exactly if it is a key, or if it is
the readable name of whatever it suggests first.  Nothing else can go wrong but a row that cannot be
read; where all rows can be read, a key is one that some function has. -/
theorem resolvesExactly_iff {like : String → String → Bool} (hlike : Like.Documented like)
    (s : StoredGraph) (name : String) :
    (∀ f, s.resolve like name = .ok f ↔ s.function? name = .ok (some f) ∨
      ¬ s.HasKey name ∧ s.FirstSuggested name f) ∧
    (∀ e, s.resolve like name = .error e ↔
      (∃ d, s.function? name = .error d ∧ e = .storage d) ∨
        ¬ s.HasKey name ∧ e = .functionNotFound name ∧ ∀ f ∈ s.stored, ¬ Suggests name f) ∧
    (s.ResolvesExactly like name ↔ (∃ f, s.function? name = .ok (some f)) ∨
      ¬ s.HasKey name ∧ (∀ f, s.FirstSuggested name f → f.displayName = some name) ∧
        (Like.isTooLong name = true → ∀ f ∈ s.stored, f.displayName ≠ some name)) ∧
    ((∀ row ∈ s.functions, ∃ f, Function.ofRow (row.select Function.columns) = .ok f) →
      ∃ found, s.function? name = .ok found ∧
        (found = none ↔ ∀ f ∈ s.stored, f.key ≠ name)) := by
  refine ⟨fun f => resolve_eq_ok_iff hlike, fun e => resolve_eq_error_iff hlike, ?_,
    fun hread => exists_function?_of_readable hread name⟩
  cases hfound : s.function? name with
  | error d =>
      refine iff_of_false (not_resolvesExactly_of_unreadable hfound) ?_
      rintro (⟨f, hf⟩ | ⟨hkey, -⟩)
      · cases hf
      · rw [function?_eq_ok_none_iff.mpr hkey] at hfound
        cases hfound
  | ok found =>
      cases found with
      | some f => exact iff_of_true (resolvesExactly_of_key hfound) (Or.inl ⟨f, rfl⟩)
      | none =>
          have hkey := function?_eq_ok_none_iff.mp hfound
          constructor
          · intro hexact
            exact Or.inr ⟨hkey, fun f => displayName_of_resolvesExactly hlike hkey hexact,
              displayName_ne_of_resolvesExactly hlike hkey hexact⟩
          · rintro (⟨f, hf⟩ | ⟨-, hfirst, hlong⟩)
            · cases hf
            · exact resolvesExactly_of_firstSuggested hlike hkey hfirst hlong

/-- A function of a thread. -/
def threadTwo : Function := { key := "_Z12thread2startv", displayName := some "thread2start" }

/-- Another function, whose readable name differs in one character. -/
def threadStart : Function := { key := "_Z12thread_startv", displayName := some "thread_start" }

/-- The two functions stored. -/
def threads : StoredGraph := (empty.insertFunction threadTwo 0).insertFunction threadStart 1

theorem stored_threads : threads.stored = [threadTwo, threadStart] := by cbv

/-- The name `thread_start` is no key and suggests `thread2start` first, since `_` matches any
character. -/
theorem firstSuggested_threads :
    ¬ threads.HasKey "thread_start" ∧ threads.FirstSuggested "thread_start" threadTwo := by
  have hnone : threads.function? "thread_start" = .ok none := by cbv
  have hsuggests : nameMatches Like.isMatch "thread_start" threadTwo = true := by decide
  exact ⟨function?_eq_ok_none_iff.mp hnone, [], [threadStart], stored_threads,
    (nameMatches_iff_suggests Like.documented_isMatch).mp hsuggests, by simp⟩

theorem threads_resolved : Like.Documented Like.isMatch ∧
    threads.resolve Like.isMatch "thread_start" = .ok threadTwo ∧
    threads.ResolvesExactly Like.isMatch "_Z12thread_startv" := by
  have hlike := Like.documented_isMatch
  obtain ⟨hresolve, -⟩ := resolvesExactly_iff hlike threads "thread_start"
  obtain ⟨-, -, hexact, -⟩ := resolvesExactly_iff hlike threads "_Z12thread_startv"
  exact ⟨hlike, (hresolve threadTwo).mpr (Or.inr firstSuggested_threads),
    hexact.mpr (Or.inl ⟨threadStart, by cbv⟩)⟩

/-- The name `thread_start` is not resolved as it is meant. -/
theorem threads_not_resolvedExactly : ¬ threads.ResolvesExactly Like.isMatch "thread_start" := by
  intro hexact
  obtain ⟨f, -, hname, hresolve⟩ := hexact.byName (by rw [stored_threads]; decide)
    ⟨threadStart, by rw [stored_threads]; decide, rfl⟩
  have hother : threads.resolve Like.isMatch "thread_start" = .ok threadTwo :=
    (resolve_eq_ok_iff Like.documented_isMatch).mpr (Or.inr firstSuggested_threads)
  cases hother.symm.trans hresolve
  exact absurd hname (by decide)

end StoredGraph

end CallGraphs
