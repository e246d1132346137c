import CallGraphs.Json.Parser
import CallGraphs.Json.Printer
import Mathlib.Data.List.Basic

/-!
# Texts of JSON values

What is written on one line is read back (`Json.parse?_compact`), numbers apart, as
long as arrays and objects are not nested deeper than a reader goes.  A character of a
string is written so that the reader of strings takes it back from what follows
(`Json.stringTail_escape`).  So each value can be read off the front of a text,
whatever stands behind it (`Json.Plain.value_append`), and then rows of values with
commas between them (`Json.separated_row`).
-/

namespace CallGraphs

open CallGraphs.Json.Parser

namespace Json

/-! ## Strings -/

theorem hexValue_hexDigit : ∀ n < 16, hexValue (hexDigit n) = some n := by decide

/-- How a character is written inside of a string. -/
theorem escape_cases (c : Char) :
    (∃ e, (escape c).toList = ['\\', e] ∧ shortEscape e = some c ∧ e ≠ 'u') ∨
    ((escape c).toList =
      ['\\', 'u', '0', '0', hexDigit (c.toNat / 16), hexDigit (c.toNat % 16)] ∧ c.toNat < 32) ∨
    ((escape c).toList = [c] ∧ c ≠ '\\' ∧ c ≠ '"' ∧ 32 ≤ c.toNat) := by
  have hcode : ∀ n, c.toNat = n → c = Char.ofNat n := fun n h => by rw [← h, Char.ofNat_toNat]
  unfold escape
  split
  · exact .inl ⟨'"', rfl, rfl, by decide⟩
  · exact .inl ⟨'\\', rfl, rfl, by decide⟩
  · exact .inl ⟨'n', rfl, rfl, by decide⟩
  · exact .inl ⟨'r', rfl, rfl, by decide⟩
  · exact .inl ⟨'t', rfl, rfl, by decide⟩
  · next hquote hslash _ _ _ =>
    split
    · next h => exact .inl ⟨'b', rfl, congrArg some (hcode 8 h).symm, by decide⟩
    · split
      · next h => exact .inl ⟨'f', rfl, congrArg some (hcode 12 h).symm, by decide⟩
      · split
        · next h => exact .inr (.inl ⟨by simp, h⟩)
        · next h => exact .inr (.inr ⟨by simp, hslash, hquote, Nat.le_of_not_lt h⟩)

/-- The reader of a string takes back a character that was written. -/
theorem stringTail_escape (read : List Nat) (c : Char) (rest : List Char) :
    stringTail read ((escape c).toList ++ rest) = stringTail (c.toNat :: read) rest := by
  rcases escape_cases c with ⟨e, hc, he, hu⟩ | ⟨hc, hlt⟩ | ⟨hc, hslash, hquote, hle⟩
  · rw [hc, List.cons_append, List.cons_append, List.nil_append, stringTail]
    · rw [he]
    · rintro _ _ _ _ _ rfl
      exact absurd rfl hu
  · have hhigh := hexValue_hexDigit (c.toNat / 16) (by omega)
    have hlow := hexValue_hexDigit (c.toNat % 16) (by omega)
    have hunit : hexUnit '0' '0' (hexDigit (c.toNat / 16)) (hexDigit (c.toNat % 16)) =
        some c.toNat := by
      have hzero : hexValue '0' = some 0 := by decide
      simp only [hexUnit, hzero, hhigh, hlow, Option.bind_eq_bind, Option.bind_some]
      congr 1
      omega
    rw [hc]
    simp only [List.cons_append, List.nil_append]
    rw [stringTail, hunit]
  · rw [hc, List.cons_append, List.nil_append, stringTail, if_neg (by omega)]
    · exact hquote
    · exact fun _ _ _ _ _ h => absurd h hslash
    · exact fun _ _ h => absurd h hslash

/-- Characters are no halves of pairs, so their codes are the text of them. -/
theorem textOf_map_toNat (read text : List Char) :
    textOf read (text.map Char.toNat) = some (String.ofList (read.reverse ++ text)) := by
  induction text generalizing read with
  | nil => simp [textOf]
  | cons c text ih =>
      have hvalid : c.toNat < 0xD800 ∨ 0xDFFF < c.toNat ∧ c.toNat < 0x110000 := c.valid
      have htrailing : isTrailing c.toNat = false := by
        simp only [isTrailing, Bool.and_eq_false_iff, decide_eq_false_iff_not]
        omega
      have hleading : isLeading c.toNat = false := by
        simp only [isLeading, Bool.and_eq_false_iff, decide_eq_false_iff_not]
        omega
      rw [List.map_cons, textOf.eq_def]
      simp [htrailing, hleading, ih]

/-- A string is read back, whatever follows its closing quote. -/
theorem stringBody_escape (text : String) (rest : List Char) :
    stringBody (text.toList.flatMap (fun c => (escape c).toList) ++ '"' :: rest) =
      some (some text, rest) := by
  have htail : ∀ (chars : List Char) (read : List Nat),
      stringTail read (chars.flatMap (fun c => (escape c).toList) ++ '"' :: rest) =
        some (read.reverse ++ chars.map Char.toNat, rest) := by
    intro chars
    induction chars with
    | nil => intro read; simp [stringTail]
    | cons c chars ih =>
        intro read
        rw [List.flatMap_cons, List.append_assoc, stringTail_escape, ih]
        simp
  rw [stringBody, htail]
  simp [textOf_map_toNat]

/-! ## Rows -/

/-- Items in a row, with commas between them. -/
def row {α : Type} (write : α → List Char) : List α → List Char
  | [] => []
  | first :: others => write first ++ others.flatMap fun a => ',' :: write a

/-- There is a comma for every item but the first one. -/
theorem length_le_row {α : Type} (write : α → List Char) (first : α) (others : List α) :
    others.length ≤ (row write (first :: others)).length := by
  rw [row, List.length_append]
  induction others with
  | nil => exact Nat.zero_le _
  | cons a others ih =>
      simp only [List.flatMap_cons, List.length_cons, List.length_append] at ih ⊢
      omega

/-- Items that are read back, whatever follows them, are read back in a row. -/
theorem separated_row {α β : Type} {element : Reader β} {close : Char} {write : α → List Char}
    {value : α → β} (hcomma : ',' ≠ close) (hblank : isBlank close = false) (rest : List Char)
    (others : List α) (first : α)
    (hread : ∀ a ∈ first :: others, ∀ rest, element (write a ++ rest) = some (value a, rest))
    (bound : Nat) (hbound : others.length < bound) :
    separated element close bound (row write (first :: others) ++ close :: rest) =
      some ((first :: others).map value, rest) := by
  induction others generalizing first bound with
  | nil =>
      obtain ⟨bound, rfl⟩ : ∃ k, bound = k + 1 := ⟨bound - 1, by omega⟩
      rw [row, List.append_assoc, separated, hread first (by simp)]
      simp [skipBlanks, hblank]
  | cons second others ih =>
      obtain ⟨bound, rfl⟩ : ∃ k, bound = k + 1 := ⟨bound - 1, by omega⟩
      have htail := ih second (fun a ha => hread a (List.mem_cons_of_mem _ ha)) bound
        (by simpa using hbound)
      rw [row, List.append_assoc, separated, hread first (by simp)]
      simp only [row, List.append_assoc] at htail
      simp [skipBlanks, isBlank, hcomma, htail]

/-- A row in brackets is read back, if no item begins with a blank or with the bracket. -/
theorem bracketed_row {α β : Type} {element : Reader β} {close : Char} {write : α → List Char}
    {value : α → β} (hcomma : ',' ≠ close) (hblank : isBlank close = false) (rest : List Char)
    (items : List α)
    (hread : ∀ a ∈ items, ∀ rest, element (write a ++ rest) = some (value a, rest))
    (hhead : ∀ a ∈ items, ∃ c tail, write a = c :: tail ∧ isBlank c = false ∧ c ≠ close) :
    bracketed element close (row write items ++ close :: rest) =
      some (items.map value, rest) := by
  cases items with
  | nil => simp [row, bracketed, skipBlanks, hblank]
  | cons first others =>
      obtain ⟨c, tail, hfirst, hc, hclose⟩ := hhead first (by simp)
      have htext : row write (first :: others) ++ close :: rest =
          c :: (tail ++ (others.flatMap fun a => ',' :: write a) ++ close :: rest) := by
        simp [row, hfirst]
      rw [bracketed, htext]
      simp only [skipBlanks, List.dropWhile_cons, hc, if_neg hclose, Bool.false_eq_true, if_false]
      rw [← htext]
      refine separated_row hcomma hblank rest others first hread _ ?_
      have hlength := length_le_row write first others
      rw [List.length_append, List.length_cons]
      omega

/-! ## Values -/

/-- Texts, truth values and `null`, and arrays and objects of them, at most so many inside of each
other. -/
inductive Plain : Nat → Json → Prop
  | null {n : Nat} : Plain n null
  | bool {n : Nat} (value : Bool) : Plain n (bool value)
  | string {n : Nat} (value : String) : Plain n (string value)
  | array {n : Nat} {items : List Json} : (∀ j ∈ items, Plain n j) → Plain (n + 1) (array items)
  | object {n : Nat} {members : List (String × Json)} :
      (∀ m ∈ members, Plain n m.2) → Plain (n + 1) (object members)

/-- The characters of a value on one line. -/
def chars (j : Json) : List Char := (compactPieces j).flatMap String.toList

/-- The characters of a member on one line. -/
def memberChars (m : String × Json) : List Char := (quoted m.1).toList ++ ':' :: chars m.2

theorem toList_quoted (text : String) :
    (quoted text).toList = '"' :: (text.toList.flatMap (fun c => (escape c).toList) ++ ['"']) := by
  simp [quoted, List.flatMap_map]

theorem chars_items (items : List Json) :
    (compactItems items).flatMap String.toList = row chars items := by
  induction items with
  | nil => rfl
  | cons item rest ih =>
      cases rest with
      | nil => simp [compactItems, row, chars]
      | cons next rest =>
          rw [compactItems, List.flatMap_append, List.flatMap_cons, ih]
          · simp [row, chars]
          · simp

theorem chars_members (members : List (String × Json)) :
    (compactMembers members).flatMap String.toList = row memberChars members := by
  induction members with
  | nil => rfl
  | cons m rest ih =>
      obtain ⟨name, value⟩ := m
      cases rest with
      | nil => simp [compactMembers, row, memberChars, chars]
      | cons next rest =>
          rw [compactMembers]
          · simp [ih, row, memberChars, chars]
          · simp

theorem chars_array (items : List Json) :
    chars (array items) = '[' :: (row chars items ++ [']']) := by
  rw [chars, compactPieces, List.cons_append, List.flatMap_cons, List.flatMap_append, chars_items]
  rfl

theorem chars_object (members : List (String × Json)) :
    chars (object members) = '\x7b' :: (row memberChars members ++ ['\x7d']) := by
  rw [chars, compactPieces, List.cons_append, List.flatMap_cons, List.flatMap_append, chars_members]
  rfl

/-- A value begins with a character that is neither a blank nor a closing bracket. -/
theorem Plain.exists_head {n : Nat} {j : Json} (h : Plain n j) :
    ∃ c tail, chars j = c :: tail ∧ isBlank c = false ∧ c ≠ ']' := by
  cases h with
  | null => exact ⟨'n', _, rfl, by decide⟩
  | bool value => cases value <;> exact ⟨_, _, rfl, by decide⟩
  | string value =>
      have htext : chars (Json.string value) = (quoted value).toList := by
        simp [chars, compactPieces]
      exact ⟨'"', _, htext.trans (toList_quoted value), by decide⟩
  | array _ => exact ⟨'[', _, chars_array _, by decide⟩
  | object _ => exact ⟨'\x7b', _, chars_object _, by decide⟩

/-- A value that is neither an array nor an object is read by the reader of such values. -/
theorem value_of_scalar {n : Nat} {cs : List Char} (hblank : ∀ c tail, cs = c :: tail →
    isBlank c = false ∧ c ≠ '[' ∧ c ≠ '\x7b') : value n cs = scalar cs := by
  have hskip : skipBlanks cs = cs := by
    cases cs with
    | nil => rfl
    | cons c tail => simp [skipBlanks, (hblank c tail rfl).1]
  cases n with
  | zero =>
      rw [value]
      dsimp only
      rw [hskip]
      split
      · exact absurd rfl (hblank _ _ rfl).2.1
      · exact absurd rfl (hblank _ _ rfl).2.2
      · rfl
  | succ n =>
      rw [value]
      dsimp only
      rw [hskip]
      split
      · exact absurd rfl (hblank _ _ rfl).2.1
      · exact absurd rfl (hblank _ _ rfl).2.2
      · rfl

theorem value_array {n : Nat} {cs rest : List Char} {items : List Json}
    (h : bracketed (value n) ']' cs = some (items, rest)) :
    value (n + 1) ('[' :: cs) = some (array items, rest) := by
  rw [value]
  simp [skipBlanks, isBlank, h]

theorem value_object {n : Nat} {cs rest : List Char} {members : List (Option (String × Json))}
    (h : bracketed (member (value n)) '\x7d' cs = some (members, rest)) :
    value (n + 1) ('\x7b' :: cs) = some (objectOf members, rest) := by
  rw [value]
  simp [skipBlanks, isBlank, h]

/-- A member is read back when its value is. -/
theorem member_append {element : Reader Json} {m : String × Json} {rest : List Char}
    (h : element (chars m.2 ++ rest) = some (m.2, rest)) :
    member element (memberChars m ++ rest) = some (some m, rest) := by
  have htext : memberChars m ++ rest = '"' :: (m.1.toList.flatMap (fun c => (escape c).toList) ++
      '"' :: ':' :: (chars m.2 ++ rest)) := by
    simp [memberChars, toList_quoted]
  rw [htext, member, memberName]
  simp [skipBlanks, isBlank, stringBody_escape, h]

theorem objectOf_map_some (members : List (String × Json)) :
    objectOf (members.map some) = object members := by
  have hall : (members.map some).mapM id = some members := by
    induction members with
    | nil => rfl
    | cons m members ih => simp [ih]
  rw [objectOf, hall]
  rfl

/-- A value is read back, whatever follows it. -/
theorem Plain.value_append {n : Nat} {j : Json} (h : Plain n j) (rest : List Char) :
    value n (chars j ++ rest) = some (j, rest) := by
  induction h generalizing rest with
  | null => rw [value_of_scalar (by simp [chars, compactPieces, isBlank])]; rfl
  | bool b =>
      cases b
      · rw [value_of_scalar (by simp [chars, compactPieces, isBlank])]; rfl
      · rw [value_of_scalar (by simp [chars, compactPieces, isBlank])]; rfl
  | string text =>
      have htext : chars (Json.string text) ++ rest =
          '"' :: (text.toList.flatMap (fun c => (escape c).toList) ++ '"' :: rest) := by
        simp [chars, compactPieces, toList_quoted]
      rw [htext, value_of_scalar (by simp [isBlank]), scalar]
      simp [stringBody_escape]
  | @array n items hitems ih =>
      have hrow : bracketed (value n) ']' (row chars items ++ ']' :: rest) =
          some (items.map id, rest) :=
        bracketed_row (by decide) (by decide) rest items ih fun j hj => (hitems j hj).exists_head
      rw [chars_array, List.cons_append, List.append_assoc, List.map_id] at *
      exact value_array hrow
  | @object n members hmembers ih =>
      have hrow : bracketed (member (value n)) '\x7d' (row memberChars members ++ '\x7d' :: rest) =
          some (members.map some, rest) := by
        refine bracketed_row (by decide) (by decide) rest members
          (fun m hm rest => member_append (ih m hm rest)) fun m _ => ?_
        exact ⟨'"', _, by rw [memberChars, toList_quoted]; rfl, by decide⟩
      rw [chars_object, List.cons_append, List.append_assoc, ← objectOf_map_some]
      exact value_object hrow

/-- What is written on one line is read back. -/
theorem parse?_compact {j : Json} (h : Plain maxDepth j) : parse? j.compact = some j := by
  have htext : j.compact.toList = chars j ++ [] := by
    simp [compact, chars]
  rw [parse?, htext, h.value_append []]
  rfl

end Json

end CallGraphs
