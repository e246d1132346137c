import CallGraphs.Text.Quoted
import Mathlib.Data.List.Basic

/-!
# Where texts end

A text that is put together of others can be read back if it shows where its parts
end.  Texts of some sorts end where they end, whatever follows (`Delimits`): texts in
quotes, and whatever is built around them.  Numbers end at the next character that is
no digit (`EndsBefore`).  A part of any kind can be told from what follows it by the
last occurrence of a character that, in what follows, stands in quotes only
(`Enclosed.cut`).
-/

namespace CallGraphs

/-! ## Cutting -/

section Cutting

variable {α : Type} {c : α} {a b x y : List α}

/-- A text is cut in one way only at a character before which no earlier cut is possible. -/
theorem cut_at_first {P : List α → Prop}
    (hP : ∀ before between, P (before ++ c :: between) → ¬ P before) (ha : P a) (hb : P b)
    (h : a ++ c :: x = b ++ c :: y) : a = b ∧ x = y := by
  rcases List.append_eq_append_iff.mp h with ⟨between, rfl, hrest⟩ | ⟨between, rfl, hrest⟩
  · cases between with
    | nil => exact ⟨(List.append_nil a).symm, (List.cons.inj hrest).2⟩
    | cons d between =>
        obtain ⟨rfl, -⟩ := List.cons.inj hrest
        exact absurd ha (hP a between hb)
  · cases between with
    | nil => exact ⟨List.append_nil b, (List.cons.inj hrest).2.symm⟩
    | cons d between =>
        obtain ⟨rfl, -⟩ := List.cons.inj hrest
        exact absurd hb (hP b between ha)

/-- A text is cut in one way only at a character after which no later cut is possible. -/
theorem cut_at_last {P : List α → Prop}
    (hP : ∀ between after, P (between ++ c :: after) → ¬ P after) (hx : P x) (hy : P y)
    (h : a ++ c :: x = b ++ c :: y) : a = b ∧ x = y := by
  have hreverse : x.reverse ++ c :: a.reverse = y.reverse ++ c :: b.reverse := by
    simpa using congrArg List.reverse h
  obtain ⟨hxy, hab⟩ := cut_at_first (P := fun text => P text.reverse)
    (fun before between h => hP between.reverse before.reverse (by simpa using h))
    (by simpa using hx) (by simpa using hy) hreverse
  exact ⟨List.reverse_injective hab, List.reverse_injective hxy⟩

/-- A text is cut in one way only at the first occurrence of a character. -/
theorem cut_of_notMem (ha : c ∉ a) (hb : c ∉ b) (h : a ++ c :: x = b ++ c :: y) : a = b ∧ x = y :=
  cut_at_first (P := (c ∉ ·)) (fun _ _ h => absurd (by simp) h) ha hb h

/-- A text is cut in one way only at the last occurrence of a character. -/
theorem cut_of_notMem_right (hx : c ∉ x) (hy : c ∉ y) (h : a ++ c :: x = b ++ c :: y) :
    a = b ∧ x = y :=
  cut_at_last (P := (c ∉ ·)) (fun _ _ h => absurd (by simp) h) hx hy h

end Cutting

/-! ## Numbers -/

/-- The characters of a number are digits of its base. -/
theorem mem_toDigits {base n : Nat} {c : Char} (hbase : 1 < base) (hc : c ∈ Nat.toDigits base n) :
    ∃ d < base, c = Nat.digitChar d := by
  induction n using Nat.strongRecOn with
  | ind n ih =>
      rw [Nat.toDigits_eq_if hbase] at hc
      by_cases hn : n < base
      · exact ⟨n, hn, by simpa [hn] using hc⟩
      rw [if_neg hn, List.mem_append] at hc
      rcases hc with hc | hc
      · exact ih _ (Nat.div_lt_self (by omega) hbase) hc
      · exact ⟨n % base, Nat.mod_lt _ (by omega), List.mem_singleton.mp hc⟩

theorem notMem_toDigits {c : Char} (hc : ∀ d < 16, c ≠ Nat.digitChar d) (n : Nat) :
    c ∉ Nat.toDigits 16 n := by
  intro hmem
  obtain ⟨d, hd, heq⟩ := mem_toDigits (by decide) hmem
  exact hc d hd heq

theorem digitChar_inj : ∀ m < 16, ∀ n < 16, Nat.digitChar m = Nat.digitChar n → m = n := by decide

/-- Numbers are told apart by their digits, to any base that has digits enough. -/
theorem toDigits_inj {base m n : Nat} (hbase : 1 < base) (hdigits : base ≤ 16)
    (h : Nat.toDigits base m = Nat.toDigits base n) : m = n := by
  induction m using Nat.strongRecOn generalizing n with
  | ind m ih =>
      have hpos : ∀ k, Nat.toDigits base k ≠ [] := fun k => Nat.toDigits_ne_nil
      rw [Nat.toDigits_eq_if hbase, Nat.toDigits_eq_if hbase (n := n)] at h
      by_cases hm : m < base <;> by_cases hn : n < base
      · rw [if_pos hm, if_pos hn] at h
        exact digitChar_inj m (by omega) n (by omega) (List.cons.inj h).1
      · rw [if_pos hm, if_neg hn] at h
        exact absurd (List.append_eq_singleton_iff.mp h.symm) (by simp [hpos])
      · rw [if_neg hm, if_pos hn] at h
        exact absurd (List.append_eq_singleton_iff.mp h) (by simp [hpos])
      · rw [if_neg hm, if_neg hn] at h
        obtain ⟨hinit, hlast⟩ := List.append_inj' h rfl
        have hdiv : m / base = n / base := ih _ (Nat.div_lt_self (by omega) hbase) hinit
        have hlt : ∀ k, k % base < 16 := fun k =>
          Nat.lt_of_lt_of_le (Nat.mod_lt k (by omega)) hdigits
        have hmod : m % base = n % base :=
          digitChar_inj _ (hlt m) _ (hlt n) (List.cons.inj hlast).1
        rw [← Nat.div_add_mod m base, ← Nat.div_add_mod n base, hdiv, hmod]

theorem notMem_toString {c : Char} (hc : c.isDigit = false) (n : Nat) :
    c ∉ (toString n).toList := by
  intro hmem
  rw [Nat.toString_eq_repr, Nat.toList_repr] at hmem
  have hdigit := Nat.isDigit_of_mem_toDigits (by decide) (by decide) hmem
  exact absurd (hdigit.symm.trans hc) (by decide)

/-! ## Texts that end by themselves -/

section Delimits

variable {α : Type} {render : α → String}

/-- Whatever follows a text of this sort, no other text of the sort begins what is written. -/
def Delimits (render : α → String) : Prop :=
  ∀ ⦃a b : α⦄ ⦃x y : List Char⦄, (render a).toList ++ x = (render b).toList ++ y → a = b ∧ x = y

/-- A text of this sort ends at the first character of the given kind that follows. -/
def EndsBefore (c : Char) (render : α → String) : Prop :=
  ∀ ⦃a b : α⦄ ⦃x y : List Char⦄,
    (render a).toList ++ c :: x = (render b).toList ++ c :: y → a = b ∧ x = y

theorem Delimits.injective (h : Delimits render) : Function.Injective render :=
  fun a b heq => (h (x := []) (y := []) (by rw [heq])).1

theorem Delimits.endsBefore (h : Delimits render) (c : Char) : EndsBefore c render := by
  intro a b x y heq
  obtain ⟨hab, hrest⟩ := h heq
  exact ⟨hab, (List.cons.inj hrest).2⟩

/-- Texts without a character end before it. -/
theorem endsBefore_of_notMem {c : Char} (hinj : Function.Injective render)
    (hc : ∀ a, c ∉ (render a).toList) : EndsBefore c render := by
  intro a b x y h
  obtain ⟨hab, hxy⟩ := cut_of_notMem (hc a) (hc b) h
  exact ⟨hinj (String.toList_inj.mp hab), hxy⟩

theorem endsBefore_toString {c : Char} (hc : c.isDigit = false) :
    EndsBefore c (toString : Nat → String) := by
  intro m n x y h
  obtain ⟨hdigits, hrest⟩ := cut_of_notMem (notMem_toString hc m) (notMem_toString hc n) h
  simp only [Nat.toString_eq_repr, Nat.toList_repr] at hdigits
  exact ⟨toDigits_inj (by decide) (by decide) hdigits, hrest⟩

/-- Texts of this sort in a row end at the first character that begins none of them. -/
theorem Delimits.endsBefore_join (h : Delimits render) {stop : Char}
    (hstop : ∀ a x y, (render a).toList ++ x ≠ stop :: y) :
    EndsBefore stop fun as : List α => String.join (as.map render) := by
  intro as bs x y heq
  simp only [String.toList_join, List.flatMap_map] at heq
  induction as generalizing bs with
  | nil =>
      cases bs with
      | nil => exact ⟨rfl, (List.cons.inj heq).2⟩
      | cons b bs =>
          rw [List.flatMap_cons, List.append_assoc] at heq
          exact absurd heq.symm (hstop b _ _)
  | cons a as ih =>
      rw [List.flatMap_cons, List.append_assoc] at heq
      cases bs with
      | nil => exact absurd heq (hstop a _ _)
      | cons b bs =>
          rw [List.flatMap_cons, List.append_assoc] at heq
          obtain ⟨rfl, hrest⟩ := h heq
          obtain ⟨rfl, hxy⟩ := ih hrest
          exact ⟨rfl, hxy⟩

/-- Items that are set off by a character are told apart, if before it no item could end earlier. -/
theorem separated_inj {c : Char} {P : List Char → Prop}
    (hP : ∀ before between, P (before ++ c :: between) → ¬ P before) (between : List Char)
    {a b : String} {as bs : List String} (has : ∀ s ∈ a :: as, P s.toList)
    (hbs : ∀ s ∈ b :: bs, P s.toList)
    (h : a.toList ++ as.flatMap (fun s => c :: (between ++ s.toList)) =
      b.toList ++ bs.flatMap fun s => c :: (between ++ s.toList)) : a = b ∧ as = bs := by
  induction as generalizing a b bs with
  | nil =>
      cases bs with
      | nil => exact ⟨String.toList_inj.mp (by simpa using h), rfl⟩
      | cons t bs =>
          rw [List.flatMap_nil, List.append_nil] at h
          exact absurd (hbs b (by simp)) (hP _ _ (h ▸ has a (by simp)))
  | cons s as ih =>
      cases bs with
      | nil =>
          rw [List.flatMap_nil, List.append_nil] at h
          exact absurd (has a (by simp)) (hP _ _ (h ▸ hbs b (by simp)))
      | cons t bs =>
          rw [List.flatMap_cons, List.flatMap_cons, List.cons_append, List.cons_append] at h
          obtain ⟨hab, hrest⟩ := cut_at_first hP (has a (by simp)) (hbs b (by simp)) h
          rw [List.append_assoc, List.append_assoc] at hrest
          obtain ⟨rfl, rfl⟩ := ih (fun s hs => has s (List.mem_cons_of_mem _ hs))
            (fun s hs => hbs s (List.mem_cons_of_mem _ hs)) (List.append_cancel_left hrest)
          exact ⟨String.toList_inj.mp hab, rfl⟩

theorem intercalate_cons (separator first : String) (rest : List String) :
    String.intercalate separator (first :: rest) =
      first ++ String.join (rest.map (separator ++ ·)) := by
  induction rest generalizing first with
  | nil => simp
  | cons second rest ih =>
      rw [String.intercalate_cons_cons, ih, List.map_cons, String.join_cons]
      simp only [String.append_assoc]

/-- The items of a list in brackets can be read back. -/
theorem Delimits.endsBefore_intercalate (h : Delimits render)
    (hbracket : ∀ a x y, (render a).toList ++ x ≠ ']' :: y) :
    EndsBefore ']' fun as : List α => String.intercalate ", " (as.map render) := by
  have hitem : Delimits fun a => ", " ++ render a := by
    intro a b x y heq
    exact h (by simpa using heq)
  have hitems : EndsBefore ']' fun as : List α => String.join (as.map fun a => ", " ++ render a) :=
    hitem.endsBefore_join (by simp)
  intro as bs x y heq
  cases as with
  | nil =>
      cases bs with
      | nil => exact ⟨rfl, by simpa using heq⟩
      | cons b bs =>
          simp only [List.map_cons, intercalate_cons, String.toList_append,
            List.append_assoc] at heq
          exact absurd heq.symm (hbracket b _ _)
  | cons a as =>
      simp only [List.map_cons, intercalate_cons, String.toList_append, List.append_assoc] at heq
      cases bs with
      | nil => exact absurd heq (hbracket a _ _)
      | cons b bs =>
          simp only [List.map_cons, intercalate_cons, String.toList_append,
            List.append_assoc] at heq
          obtain ⟨rfl, hrest⟩ := h heq
          obtain ⟨rfl, hxy⟩ := hitems (by simpa [Function.comp_def] using hrest)
          exact ⟨rfl, hxy⟩

end Delimits

/-! ## Texts in quotes -/

/-- The characters that are written as a backslash and one character, with that character. -/
def shortEscapes : List (Char × Char) :=
  [('"', '"'), ('\\', '\\'), ('\n', 'n'), ('\r', 'r'), ('\t', 't'), ('\x00', '0')]

/-- How a character is written inside quotes. -/
theorem quotedChar_cases (c : Char) :
    (∃ e ∈ shortEscapes, e.1 = c ∧ (quotedChar c).toList = ['\\', e.2]) ∨
    ((quotedChar c).toList =
      '\\' :: 'u' :: '\x7b' :: (Nat.toDigits 16 c.toNat ++ ['\x7d'])) ∨
    ((quotedChar c).toList = [c] ∧ c ≠ '\\' ∧ c ≠ '"') := by
  unfold quotedChar
  split
  case h_7 =>
      split
      · exact Or.inr (Or.inl (by simp))
      · exact Or.inr (Or.inr ⟨by simp, by assumption, by assumption⟩)
  all_goals exact Or.inl (by simp [shortEscapes])

theorem delimits_quotedChar : Delimits quotedChar := by
  have hshort : ∀ e ∈ shortEscapes, ∀ e' ∈ shortEscapes, e.2 = e'.2 → e.1 = e'.1 := by decide
  have hlong : ∀ e ∈ shortEscapes, e.2 ≠ 'u' := by decide
  intro c d x y h
  rcases quotedChar_cases c with ⟨e, he, rfl, hc⟩ | hc | ⟨hc, hslash, -⟩ <;>
    rcases quotedChar_cases d with ⟨e', he', rfl, hd⟩ | hd | ⟨hd, hslash', -⟩ <;>
    simp only [hc, hd, List.cons_append, List.nil_append, List.append_assoc, List.cons.injEq,
      true_and] at h
  · exact ⟨hshort e he e' he' h.1, h.2⟩
  · exact absurd h.1 (hlong e he)
  · exact absurd h.1.symm hslash'
  · exact absurd h.1.symm (hlong e' he')
  · have hbrace := notMem_toDigits (c := '\x7d') (by decide)
    obtain ⟨hdigits, hrest⟩ := cut_of_notMem (hbrace c.toNat) (hbrace d.toNat) h
    exact ⟨Char.toNat_inj.mp (toDigits_inj (by decide) (by decide) hdigits), hrest⟩
  · exact absurd h.1.symm hslash'
  · exact absurd h.1 hslash
  · exact absurd h.1 hslash
  · exact h

/-- No character is written as a quote, or with a quote first. -/
theorem quotedChar_append_ne (c : Char) (x y : List Char) :
    (quotedChar c).toList ++ x ≠ '"' :: y := by
  rcases quotedChar_cases c with ⟨e, -, -, hc⟩ | hc | ⟨hc, -, hquote⟩ <;>
    simp [hc]
  exact fun h => absurd h hquote

/-- A text in quotes ends at the first quote that is not written for a character. -/
theorem delimits_quotedText : Delimits quotedText := by
  intro s t x y h
  simp only [quotedText, String.toList_append, List.append_assoc] at h
  obtain ⟨hchars, hrest⟩ := delimits_quotedChar.endsBefore_join quotedChar_append_ne
    (by simpa using h)
  exact ⟨String.toList_inj.mp hchars, hrest⟩

/-! ## Characters that stand in quotes only -/

/-- Where a reader stands who is looking for a character outside quotes. -/
inductive Reading where
  | outside
  | inside
  /-- Inside quotes, after a backslash. -/
  | escaped
deriving DecidableEq

namespace Reading

/-- The place after one more character; the character looked for and a backslash stop the reader. -/
def next (sought : Char) : Reading → Char → Option Reading
  | outside, c =>
    if c = '"' then some inside else if c = '\\' ∨ c = sought then none else some outside
  | inside, c => some (if c = '"' then outside else if c = '\\' then escaped else inside)
  | escaped, _ => some inside

/-- The place after a text, if the reader is not stopped in it. -/
def read (sought : Char) (here : Reading) (text : List Char) : Option Reading :=
  text.foldlM (next sought) here

variable {sought : Char}

@[simp]
theorem read_nil (here : Reading) : here.read sought [] = some here := rfl

theorem read_cons (here : Reading) (c : Char) (text : List Char) :
    here.read sought (c :: text) = (here.next sought c).bind fun there => there.read sought text :=
  rfl

theorem read_append (here : Reading) (a b : List Char) :
    here.read sought (a ++ b) = (here.read sought a).bind fun there => there.read sought b :=
  List.foldlM_append

/-- A character that is neither a quote, nor a backslash, nor sought changes nothing. -/
theorem read_cons_of_plain {here : Reading} (hhere : here ≠ escaped) {c : Char} (hquote : c ≠ '"')
    (hslash : c ≠ '\\') (hsought : here = outside → c ≠ sought) (text : List Char) :
    here.read sought (c :: text) = here.read sought text := by
  cases here with
  | outside => simp [read_cons, next, hquote, hslash, hsought rfl]
  | inside => simp [read_cons, next, hquote, hslash]
  | escaped => exact absurd rfl hhere

theorem read_of_plain {here : Reading} (hhere : here ≠ escaped) {text : List Char}
    (hquote : '"' ∉ text) (hslash : '\\' ∉ text) (hsought : here = outside → sought ∉ text) :
    here.read sought text = some here := by
  induction text with
  | nil => rfl
  | cons c text ih =>
      rw [read_cons_of_plain hhere (List.ne_of_not_mem_cons hquote).symm
        (List.ne_of_not_mem_cons hslash).symm fun h => (List.ne_of_not_mem_cons (hsought h)).symm]
      exact ih (List.not_mem_of_not_mem_cons hquote) (List.not_mem_of_not_mem_cons hslash)
        fun h => List.not_mem_of_not_mem_cons (hsought h)

/-- No text leads both from outside and from inside quotes to the outside. -/
theorem read_inside_ne {text : List Char} (hread : outside.read sought text = some outside) :
    inside.read sought text ≠ some outside := by
  -- at a quote the two readers change places, and a backslash stops the one outside
  have hboth : ∀ text, ¬ (outside.read sought text = some outside ∧
      inside.read sought text = some outside) := by
    intro text
    induction text with
    | nil => simp
    | cons c text ih =>
        rintro ⟨hout, hin⟩
        by_cases hquote : c = '"'
        · subst hquote
          exact ih ⟨by simpa [read_cons, next] using hin, by simpa [read_cons, next] using hout⟩
        · have hplain : c ≠ '\\' ∧ c ≠ sought := by
            refine not_or.mp fun h => ?_
            simp [read_cons, next, hquote, h] at hout
          rw [read_cons_of_plain (by simp) hquote hplain.1 fun _ => hplain.2] at hout
          rw [read_cons_of_plain (by simp) hquote hplain.1 (by simp)] at hin
          exact ih ⟨hout, hin⟩
  exact fun hin => hboth text ⟨hread, hin⟩

/-- A text is cut in one way only at the last occurrence outside quotes of the character sought. -/
theorem cut_outside (hquote : sought ≠ '"') (hslash : sought ≠ '\\') {a b x y : List Char}
    (hx : outside.read sought x = some outside) (hy : outside.read sought y = some outside)
    (h : a ++ sought :: x = b ++ sought :: y) : a = b ∧ x = y := by
  refine cut_at_last (P := fun text => outside.read sought text = some outside) ?_ hx hy h
  intro between after hread hafter
  refine read_inside_ne hafter ?_
  rw [read_append] at hread
  obtain ⟨there, -, hread⟩ := Option.bind_eq_some_iff.mp hread
  cases there with
  | outside => simp [read_cons, next, hquote] at hread
  | inside => rwa [read_cons_of_plain (by simp) hquote hslash (by simp)] at hread
  | escaped => exact hread

end Reading

/-- A character stands in a text in quotes only, and no quotes are left open. -/
def Enclosed (c : Char) (text : String) : Prop :=
  Reading.outside.read c text.toList = some .outside

namespace Enclosed

variable {c : Char}

theorem of_plain {text : String}
    (h : (text.toList.all fun d => d != '"' && d != '\\' && d != c) = true) : Enclosed c text := by
  simp only [List.all_eq_true, Bool.and_eq_true, bne_iff_ne] at h
  exact Reading.read_of_plain (by simp) (fun hd => (h _ hd).1.1 rfl) (fun hd => (h _ hd).1.2 rfl)
    fun _ hd => (h _ hd).2 rfl

theorem append {a b : String} (ha : Enclosed c a) (hb : Enclosed c b) : Enclosed c (a ++ b) := by
  rw [Enclosed, String.toList_append, Reading.read_append, ha, Option.bind_some, hb]

theorem toString (hc : c.isDigit = false) (n : Nat) : Enclosed c (toString n) :=
  Reading.read_of_plain (by simp) (notMem_toString (by decide) n)
    (notMem_toString (by decide) n) fun _ => notMem_toString hc n

theorem quotedText (text : String) : Enclosed c (quotedText text) := by
  have hchar : ∀ d, Reading.inside.read c (quotedChar d).toList = some .inside := by
    intro d
    rcases quotedChar_cases d with ⟨e, -, -, hd⟩ | hd | ⟨hd, hs, hq⟩ <;> rw [hd]
    · rfl
    · change Reading.inside.read c ('\x7b' :: (Nat.toDigits 16 d.toNat ++ ['\x7d'])) = _
      refine Reading.read_of_plain (by simp) ?_ ?_ (by simp)
      · simpa using notMem_toDigits (by decide) d.toNat
      · simpa using notMem_toDigits (by decide) d.toNat
    · exact Reading.read_of_plain (by simp) (by simpa using hq.symm) (by simpa using hs.symm)
        (by simp)
  have hchars : ∀ text : List Char, Reading.inside.read c
      (text.flatMap fun d => (quotedChar d).toList) = some .inside := by
    intro text
    induction text with
    | nil => rfl
    | cons d text ih => rw [List.flatMap_cons, Reading.read_append, hchar, Option.bind_some, ih]
  simp [Enclosed, CallGraphs.quotedText, List.flatMap_map, Reading.read_append, Reading.read_cons,
    Reading.next, hchars]

theorem intercalate {texts : List String} {separator : String} (hseparator : Enclosed c separator)
    (htexts : ∀ text ∈ texts, Enclosed c text) :
    Enclosed c (String.intercalate separator texts) := by
  induction texts with
  | nil => rfl
  | cons first rest ih =>
      cases rest with
      | nil => exact htexts first (by simp)
      | cons second rest =>
          rw [String.intercalate_cons_cons]
          exact ((htexts first (by simp)).append hseparator).append
            (ih fun text htext => htexts text (List.mem_cons_of_mem _ htext))

/-- What follows the last occurrence outside quotes of a character can be told from what stands
before it. -/
theorem cut (hquote : c ≠ '"') (hslash : c ≠ '\\') {a b x y : String} (hx : Enclosed c x)
    (hy : Enclosed c y) (h : a.toList ++ c :: x.toList = b.toList ++ c :: y.toList) :
    a = b ∧ x = y := by
  obtain ⟨hab, hxy⟩ := Reading.cut_outside hquote hslash hx hy h
  exact ⟨String.toList_inj.mp hab, String.toList_inj.mp hxy⟩

end Enclosed

end CallGraphs
