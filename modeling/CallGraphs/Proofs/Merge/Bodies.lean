import CallGraphs.Proofs.Graph.Sorting
import CallGraphs.Proofs.Merge.Wording
import Mathlib.Data.List.Perm.Basic
import Mathlib.Data.Set.Function

/-!
# When definitions are the same

Definitions without a digest of their own are the same if their texts have the same
digest.  The text is the signature and the facts of the body, one line each, in sorted
order.  So the order of the facts does not matter, but names may hide where they end.
Where the digest is free of collisions (`Fingerprint.CollisionFree`), the texts decide.

* Without line breaks, two texts are the same exactly if the signatures read alike and
  the same words are left of the facts (`BodyFact.spelled`).
* With plain names (`Body.IsPlain`) nothing is hidden, and the texts are the same
  exactly if the signatures and the facts are (`Fingerprint.eq_iff_sameFacts`).
* Names need not be plain: a method `worker::step` of `pool` reads like a method
  `step` of `pool::worker`.
-/

namespace CallGraphs

/-! ## Plain names -/

section Names

variable {f g m n : String} {i j : Nat}

/-- A name without a colon is told from the scope that it is in. -/
theorem scoped_inj (hm : ':' ∉ m.toList) (hn : ':' ∉ n.toList)
    (h : f ++ "::" ++ m = g ++ "::" ++ n) : f = g ∧ m = n := by
  obtain ⟨hscope, hname⟩ := cut_of_notMem_right (a := f.toList ++ [':']) (b := g.toList ++ [':'])
    hm hn (by simpa using congrArg String.toList h)
  exact ⟨String.toList_inj.mp (List.append_cancel_right hscope), String.toList_inj.mp hname⟩

/-- A number is told from the name that it is set behind. -/
theorem numbered_inj {c : Char} (hc : c.isDigit = false)
    (h : f.toList ++ c :: (toString i).toList = g.toList ++ c :: (toString j).toList) :
    f = g ∧ i = j := by
  obtain ⟨hname, hnumber⟩ := cut_of_notMem_right (notMem_toString hc i) (notMem_toString hc j) h
  rw [Nat.toString_eq_repr, Nat.toString_eq_repr, Nat.toList_repr, Nat.toList_repr] at hnumber
  exact ⟨String.toList_inj.mp hname, toDigits_inj (by decide) (by decide) hnumber⟩

end Names

namespace Slot

/-- The names of variables and fields have no colon, and what a slot ends with is not taken for the
brackets of an array. -/
def IsPlain : Slot → Prop
  | localVar _ name | field _ name => ':' ∉ name.toList ∧ ¬ ['[', ']'] <:+ name.toList
  | result name | global name => ¬ ['[', ']'] <:+ name.toList
  | element array => array.IsPlain
  | param .. | temporary .. => True

instance decidableIsPlain : (s : Slot) → Decidable s.IsPlain
  | localVar _ name | field _ name =>
    inferInstanceAs (Decidable (':' ∉ name.toList ∧ ¬ ['[', ']'] <:+ name.toList))
  | result name | global name => inferInstanceAs (Decidable (¬ ['[', ']'] <:+ name.toList))
  | element array => decidableIsPlain array
  | param .. | temporary .. => .isTrue trivial

/-- The letter that the text of a slot begins with. -/
def initial : Slot → Char
  | localVar .. => 'l'
  | param .. => 'p'
  | result _ => 'r'
  | field .. => 'f'
  | global _ => 'g'
  | element array => array.initial
  | temporary .. => 't'

theorem head?_text (s : Slot) : s.text.toList.head? = some s.initial := by
  induction s with
  | element s ih => simp [text, initial, List.head?_append, ih]
  | _ => simp [text, initial]

/-- Brackets at the end lie in the name at the end, if what sets it off is no bracket. -/
theorem suffix_of_suffix_append {c : Char} (hopen : c ≠ '[') (hclose : c ≠ ']')
    {before name : List Char} (h : ['[', ']'] <:+ before ++ c :: name) : ['[', ']'] <:+ name := by
  rw [← List.reverse_prefix] at h ⊢
  match hname : name.reverse with
  | [] => simp [hname, hclose.symm] at h
  | [d] => simp [hname, hopen.symm] at h
  | d :: e :: rest => simpa [hname] using h

theorem not_suffix_append_toString {before : List Char} {n : Nat} :
    ¬ ['[', ']'] <:+ before ++ (toString n).toList := by
  intro h
  rw [← List.reverse_prefix, List.reverse_append] at h
  match hdigits : (toString n).toList.reverse with
  | [] => simp [Nat.toDigits_ne_nil] at hdigits
  | d :: rest =>
      rw [hdigits] at h
      obtain ⟨rfl, -⟩ := List.cons_prefix_cons.mp h
      refine notMem_toString (c := ']') (by decide) n ?_
      rw [← List.mem_reverse, hdigits]
      exact List.mem_cons_self

/-- No slot but an array element is written with the brackets of an array behind it. -/
theorem not_suffix_text {s : Slot} (hs : s.IsPlain) (helement : ∀ a, s ≠ element a) :
    ¬ ['[', ']'] <:+ s.text.toList := by
  cases s with
  | localVar f name =>
      have htext : (localVar f name).text.toList =
          ("local " ++ f ++ ":").toList ++ ':' :: name.toList := by simp [text]
      exact fun h => hs.2 (suffix_of_suffix_append (by decide) (by decide) (htext ▸ h))
  | field c name =>
      have htext : (field c name).text.toList =
          ("field " ++ c ++ ":").toList ++ ':' :: name.toList := by simp [text]
      exact fun h => hs.2 (suffix_of_suffix_append (by decide) (by decide) (htext ▸ h))
  | result f =>
      have htext : (result f).text.toList = "return of".toList ++ ' ' :: f.toList := by simp [text]
      exact fun h => hs (suffix_of_suffix_append (by decide) (by decide) (htext ▸ h))
  | global name =>
      have htext : (global name).text.toList = "global".toList ++ ' ' :: name.toList := by
        simp [text]
      exact fun h => hs (suffix_of_suffix_append (by decide) (by decide) (htext ▸ h))
  | param f i =>
      rw [text, String.toList_append]
      exact not_suffix_append_toString
  | temporary f i =>
      rw [text, String.toList_append]
      exact not_suffix_append_toString
  | element a => exact absurd rfl (helement a)

theorem text_inj {s t : Slot} (hs : s.IsPlain) (ht : t.IsPlain) (h : s.text = t.text) : s = t := by
  have hinitial : s.initial = t.initial := Option.some.inj <| by
    rw [← head?_text, ← head?_text, h]
  have hbrackets : ∀ {s t : Slot}, t.IsPlain → (∀ a, t ≠ element a) →
      (element s).text ≠ t.text := by
    intro s t ht helement h
    exact not_suffix_text ht helement ⟨s.text.toList, by simp [← h, text]⟩
  induction s generalizing t with
  | element s ih =>
      cases t with
      | element t =>
          have htext : s.text = t.text := (String.append_left_inj _).mp h
          exact congrArg element (ih hs ht htext hinitial)
      | _ => exact absurd h (hbrackets ht (by simp))
  | localVar f m =>
      cases t with
      | localVar g n =>
          obtain ⟨rfl, rfl⟩ := scoped_inj hs.1 ht.1 (by simpa [text, String.append_assoc] using h)
          rfl
      | element t => exact absurd h.symm (hbrackets hs (by simp))
      | _ => simp [initial] at hinitial
  | param f i =>
      cases t with
      | param g j =>
          obtain ⟨rfl, rfl⟩ := numbered_inj (c := '#') (by decide)
            (by simpa [text] using congrArg String.toList h)
          rfl
      | element t => exact absurd h.symm (hbrackets hs (by simp))
      | _ => simp [initial] at hinitial
  | result f =>
      cases t with
      | result g => rw [(String.append_right_inj _).mp h]
      | element t => exact absurd h.symm (hbrackets hs (by simp))
      | _ => simp [initial] at hinitial
  | field c m =>
      cases t with
      | field d n =>
          obtain ⟨rfl, rfl⟩ := scoped_inj hs.1 ht.1 (by simpa [text, String.append_assoc] using h)
          rfl
      | element t => exact absurd h.symm (hbrackets hs (by simp))
      | _ => simp [initial] at hinitial
  | global m =>
      cases t with
      | global n => rw [(String.append_right_inj _).mp h]
      | element t => exact absurd h.symm (hbrackets hs (by simp))
      | _ => simp [initial] at hinitial
  | temporary f i =>
      cases t with
      | temporary g j =>
          obtain ⟨rfl, rfl⟩ := numbered_inj (c := '%') (by decide)
            (by simpa [text] using congrArg String.toList h)
          rfl
      | element t => exact absurd h.symm (hbrackets hs (by simp))
      | _ => simp [initial] at hinitial

end Slot

/-! ## Plain signatures -/

namespace Signature

/-- The depth in brackets after a character; `none` if a bracket closes that is not open, or at a
comma outside brackets where `commas` does not allow it. -/
def nest (commas : Bool) (depth : Nat) (c : Char) : Option Nat :=
  if c ∈ ['(', '[', '\x7b', '<'] then some (depth + 1)
  else if c ∈ [')', ']', '\x7d', '>'] then if depth = 0 then none else some (depth - 1)
  else if c = ',' ∧ depth = 0 ∧ commas = false then none
  else some depth

/-- The depth in brackets after a text. -/
def depthAfter (commas : Bool) (depth : Nat) (text : List Char) : Option Nat :=
  text.foldlM (nest commas) depth

/-- The parameters can be told apart: the brackets in each are closed, its commas stand in brackets,
and there is not just an empty one, which would read like none. -/
structure IsPlain (s : Signature) : Prop where
  closed : ∀ p ∈ s.params, depthAfter false 0 p.toList = some 0
  typed : s.params ≠ [""]

theorem depthAfter_append (commas : Bool) (depth : Nat) (a b : List Char) :
    depthAfter commas depth (a ++ b) =
      (depthAfter commas depth a).bind fun d => depthAfter commas d b :=
  List.foldlM_append

theorem depthAfter_cons (commas : Bool) (depth : Nat) (c : Char) (text : List Char) :
    depthAfter commas depth (c :: text) =
      (nest commas depth c).bind fun d => depthAfter commas d text :=
  rfl

theorem nest_deeper {commas : Bool} {depth after more : Nat} {c : Char}
    (h : nest commas depth c = some after) : nest true (depth + more) c = some (after + more) := by
  unfold nest at h ⊢
  grind

/-- Deeper in brackets, and with commas, a text changes the depth as it does outside. -/
theorem depthAfter_deeper {commas : Bool} {depth after : Nat} {text : List Char}
    (h : depthAfter commas depth text = some after) (more : Nat) :
    depthAfter true (depth + more) text = some (after + more) := by
  induction text generalizing depth with
  | nil => cases h; rfl
  | cons c text ih =>
      obtain ⟨d, hd, hrest⟩ := Option.bind_eq_some_iff.mp h
      rw [depthAfter_cons, nest_deeper hd, Option.bind_some, ih hrest]

/-- The parameters together are closed as well. -/
theorem depthAfter_intercalate {params : List String}
    (hclosed : ∀ p ∈ params, depthAfter false 0 p.toList = some 0) :
    depthAfter true 0 (String.intercalate ", " params).toList = some 0 := by
  induction params with
  | nil => rfl
  | cons p params ih =>
      have hp := depthAfter_deeper (hclosed p (by simp)) 0
      cases params with
      | nil => simpa using hp
      | cons q params =>
          have ih := ih fun r hr => hclosed r (List.mem_cons_of_mem _ hr)
          rw [String.intercalate_cons_cons, String.toList_append, String.toList_append,
            depthAfter_append, depthAfter_append, hp]
          exact ih

/-- A comma outside brackets does not belong to the parameter before it. -/
theorem not_closed_of_comma {before between : List Char}
    (h : depthAfter false 0 (before ++ ',' :: between) = some 0) :
    ¬ depthAfter false 0 before = some 0 := by
  intro hbefore
  rw [depthAfter_append, hbefore] at h
  cases h

/-- A bracket that opens among the parameters is closed there. -/
theorem not_closed_of_open {between after : List Char}
    (h : depthAfter true 0 (between ++ '(' :: after) = some 0) :
    ¬ depthAfter true 0 after = some 0 := by
  intro hafter
  rw [depthAfter_append] at h
  obtain ⟨depth, -, hdepth⟩ := Option.bind_eq_some_iff.mp h
  have hdeeper := depthAfter_deeper hafter (depth + 1)
  rw [Nat.zero_add] at hdeeper
  cases hdeeper.symm.trans hdepth

variable {s t : Signature}

theorem params_eq_nil (hs : s.IsPlain) (h : String.intercalate ", " s.params = "") :
    s.params = [] := by
  cases hparams : s.params with
  | nil => rfl
  | cons p params =>
      rw [hparams, intercalate_cons, String.append_eq_empty_iff] at h
      obtain ⟨rfl, hrest⟩ := h
      cases params with
      | nil => exact absurd hparams hs.typed
      | cons q params => simp at hrest

theorem params_inj (hs : s.IsPlain) (ht : t.IsPlain)
    (h : String.intercalate ", " s.params = String.intercalate ", " t.params) :
    s.params = t.params := by
  cases hsparams : s.params with
  | nil =>
      rw [hsparams] at h
      exact (params_eq_nil ht h.symm).symm
  | cons p params =>
      cases htparams : t.params with
      | nil =>
          rw [htparams] at h
          exact hsparams ▸ params_eq_nil hs h
      | cons q params' =>
          have hp := hsparams ▸ hs.closed
          have hq := htparams ▸ ht.closed
          rw [hsparams, htparams, intercalate_cons, intercalate_cons] at h
          obtain ⟨rfl, rfl⟩ := separated_inj (P := fun text => depthAfter false 0 text = some 0)
            (fun _ _ => not_closed_of_comma) [' '] hp hq
            (by simpa [List.flatMap_map] using congrArg String.toList h)
          rfl

theorem text_inj (hs : s.IsPlain) (ht : t.IsPlain) (h : s.text = t.text) : s = t := by
  have htext := congrArg String.toList ((String.append_left_inj _).mp h)
  obtain ⟨hret, hparams⟩ := cut_at_last (P := fun text => depthAfter true 0 text = some 0)
    (fun _ _ => not_closed_of_open) (depthAfter_intercalate hs.closed)
    (depthAfter_intercalate ht.closed) (by simpa using htext)
  obtain ⟨params, ret⟩ := s
  obtain rfl := params_inj hs ht (String.toList_inj.mp hparams)
  obtain rfl := String.toList_inj.mp hret
  rfl

end Signature

/-! ## Plain facts -/

/-- The target is told by its words: a method has no colon, and a slot has plain names. -/
def CallTarget.IsPlain : CallTarget → Prop
  | virtual _ method => ':' ∉ method.toList
  | pointer place | memberPointer place _ => place.IsPlain
  | direct _ | implicit .. => True

instance CallTarget.decidableIsPlain : (t : CallTarget) → Decidable t.IsPlain
  | virtual _ method => inferInstanceAs (Decidable (':' ∉ method.toList))
  | pointer place | memberPointer place _ => inferInstanceAs (Decidable place.IsPlain)
  | direct _ | implicit .. => .isTrue trivial

theorem CallTarget.spelled_inj {a b : CallTarget} (ha : a.IsPlain) (hb : b.IsPlain)
    (h : a.spelled = b.spelled) : a = b := by
  cases a with
  | virtual c m =>
      cases b with
      | virtual d n =>
          obtain ⟨rfl, rfl⟩ := scoped_inj ha hb (CallTarget.virtual.inj h).2
          rfl
      | _ => cases h
  | pointer s =>
      cases b with
      | pointer t => rw [Slot.text_inj ha hb (Slot.spelled_eq_iff.mp (CallTarget.pointer.inj h))]
      | _ => cases h
  | memberPointer s r =>
      cases b with
      | memberPointer t q =>
          obtain ⟨hplace, rfl⟩ := CallTarget.memberPointer.inj h
          rw [Slot.text_inj ha hb (Slot.spelled_eq_iff.mp hplace)]
      | _ => cases h
  | direct f =>
      cases b <;> cases h
      rfl
  | implicit k p c f =>
      cases b <;> cases h
      rfl

namespace BodyFact

/-- The fact is told by its words. -/
def IsPlain : BodyFact → Prop
  | call target _ _ => target.IsPlain
  | assignment _ destination => destination.IsPlain
  | lifetime .. => True

instance decidableIsPlain : (f : BodyFact) → Decidable f.IsPlain
  | call target _ _ => inferInstanceAs (Decidable target.IsPlain)
  | assignment _ destination => inferInstanceAs (Decidable destination.IsPlain)
  | lifetime .. => .isTrue trivial

theorem spelled_inj {f g : BodyFact} (hf : f.IsPlain) (hg : g.IsPlain)
    (h : f.spelled = g.spelled) : f = g := by
  cases f with
  | call a args argCount =>
      cases g with
      | call b args' argCount' =>
          obtain ⟨htarget, rfl, rfl⟩ := BodyFact.call.inj h
          rw [CallTarget.spelled_inj hf hg htarget]
      | _ => cases h
  | assignment a s =>
      cases g with
      | assignment b t =>
          obtain ⟨rfl, hslot⟩ := BodyFact.assignment.inj h
          rw [Slot.text_inj hf hg (Slot.spelled_eq_iff.mp hslot)]
      | _ => cases h
  | lifetime k p c f =>
      cases g <;> cases h
      rfl

end BodyFact

/-! ## Lists up to their order -/

/-- Sorting forgets the order of the lines and nothing else. -/
theorem mergeSort_eq_iff_perm {l l' : List String} :
    (l.mergeSort fun a b => (compare a b).isLE) = (l'.mergeSort fun a b => (compare a b).isLE) ↔
      l.Perm l' := by
  refine ⟨fun h => ?_, fun h => mergeSort_eq_of_perm id h fun _ _ _ _ =>
    Std.LawfulEqOrd.eq_of_compare⟩
  exact (List.mergeSort_perm l _).symm.trans (h ▸ List.mergeSort_perm l' _)

/-- Lists are permuted alike by functions that tell the same elements apart. -/
theorem perm_map_iff {α β γ : Type} {p : α → Prop} {f : α → β} {g : α → γ}
    (h : ∀ a b, p a → p b → (f a = f b ↔ g a = g b)) {l l' : List α} (hl : ∀ a ∈ l, p a)
    (hl' : ∀ a ∈ l', p a) : (l.map f).Perm (l'.map f) ↔ (l.map g).Perm (l'.map g) := by
  let R : β → γ → Prop := fun b c => ∃ a, p a ∧ f a = b ∧ g a = c
  have hunique : Relator.BiUnique R := by
    constructor
    · rintro b c b' ⟨a, ha, rfl, rfl⟩ ⟨a', ha', rfl, hg⟩
      exact (h a a' ha ha').mpr hg.symm
    · rintro b c c' ⟨a, ha, rfl, rfl⟩ ⟨a', ha', hf, rfl⟩
      exact (h a a' ha ha').mp hf.symm
  have hmaps : ∀ {l : List α}, (∀ a ∈ l, p a) → List.Forall₂ R (l.map f) (l.map g) := by
    intro l hl
    rw [List.forall₂_map_left_iff, List.forall₂_map_right_iff, List.forall₂_same]
    exact fun a ha => ⟨a, hl a ha, rfl, rfl⟩
  exact List.rel_perm hunique (hmaps hl) (hmaps hl')

/-! ## Bodies -/

namespace Body

variable {u u' : TranslationUnit} {r r' : FunctionRecord}

/-- Neither the signature nor a fact is written with a line break. -/
structure Unbroken (u : TranslationUnit) (r : FunctionRecord) : Prop where
  signature : '\n' ∉ r.signature.text.toList
  lines : ∀ line ∈ lines u r.key, '\n' ∉ line.toList

/-- All names are plain. -/
structure IsPlain (u : TranslationUnit) (r : FunctionRecord) : Prop extends Unbroken u r where
  parameters : r.signature.IsPlain
  facts : ∀ f ∈ facts u r.key, f.IsPlain

theorem text_eq_of_perm (hkey : r.key = r'.key) (hsignature : r.signature.text = r'.signature.text)
    (hlines : (lines u r.key).Perm (lines u' r'.key)) : text u r = text u' r' := by
  rw [text, text, hsignature, mergeSort_eq_iff_perm.mpr hlines, hkey]

/-- Without line breaks in them, the lines of a body can be read back. -/
theorem text_eq_iff (hu : Unbroken u r) (hu' : Unbroken u' r') (hkey : r.key = r'.key) :
    text u r = text u' r' ↔
      r.signature.text = r'.signature.text ∧ (lines u r.key).Perm (lines u' r'.key) := by
  refine ⟨fun h => ?_, fun h => text_eq_of_perm hkey h.1 h.2⟩
  have hunbroken : ∀ {u : TranslationUnit} {r : FunctionRecord}, Unbroken u r →
      ∀ s ∈ r.signature.text :: (lines u r.key).mergeSort fun a b => (compare a b).isLE,
        '\n' ∉ s.toList := by
    intro u r hu s hs
    rcases List.mem_cons.mp hs with rfl | hs
    · exact hu.signature
    · exact hu.lines s (List.mem_mergeSort.mp hs)
  have hfirst : ∀ before between : List Char, '\n' ∉ before ++ '\n' :: between →
      ¬ '\n' ∉ before := fun _ _ h => absurd (by simp) h
  have hrest := h
  rw [text, text, ← hkey, String.append_assoc, String.append_assoc,
    String.append_right_inj] at hrest
  obtain ⟨hsignature, hlines⟩ := separated_inj (P := ('\n' ∉ ·)) hfirst [] (hunbroken hu)
    (hkey ▸ hunbroken hu') (by simpa [List.flatMap_map] using congrArg String.toList hrest)
  exact ⟨hsignature, hkey ▸ mergeSort_eq_iff_perm.mp hlines⟩

end Body

/-- No two of these texts have the same digest. -/
def Fingerprint.CollisionFree (digest : String → String) (texts : Set String) : Prop :=
  texts.InjOn digest

/-- Definitions with the same signature and the same facts, in any order, have the same fingerprint.
Without line breaks it tells apart what their words tell apart, and with plain names it tells apart
all definitions that differ in their signatures or in their facts. -/
theorem Fingerprint.eq_iff_sameFacts {digest : String → String} {u u' : TranslationUnit}
    {r r' : FunctionRecord} (hdigest : CollisionFree digest {Body.text u r, Body.text u' r'})
    (hkey : r.key = r'.key) (hr : r.bodyHash = none) (hr' : r'.bodyHash = none) :
    (r.signature = r'.signature → (Body.facts u r.key).Perm (Body.facts u' r'.key) →
      Fingerprint.of digest u r = Fingerprint.of digest u' r') ∧
    (Body.Unbroken u r → Body.Unbroken u' r' →
      (Fingerprint.of digest u r = Fingerprint.of digest u' r' ↔
        r.signature.text = r'.signature.text ∧
          ((Body.facts u r.key).map BodyFact.spelled).Perm
            ((Body.facts u' r'.key).map BodyFact.spelled))) ∧
    (Body.IsPlain u r → Body.IsPlain u' r' →
      (Fingerprint.of digest u r = Fingerprint.of digest u' r' ↔
        r.signature = r'.signature ∧ (Body.facts u r.key).Perm (Body.facts u' r'.key))) := by
  have htext : Fingerprint.of digest u r = Fingerprint.of digest u' r' ↔
      Body.text u r = Body.text u' r' := by
    rw [Fingerprint.of, Fingerprint.of, hr, hr']
    exact Set.InjOn.eq_iff hdigest (by simp) (by simp)
  have hperm : (Body.facts u r.key).Perm (Body.facts u' r'.key) →
      (Body.lines u r.key).Perm (Body.lines u' r'.key) := by
    rw [Body.lines_eq_map_facts, Body.lines_eq_map_facts]
    exact List.Perm.map _
  refine ⟨fun hsignature hfacts => ?_, fun hu hu' => ?_, fun hu hu' => ?_⟩
  · exact htext.mpr (Body.text_eq_of_perm hkey (by rw [hsignature]) (hperm hfacts))
  · rw [htext, Body.text_eq_iff hu hu' hkey, Body.lines_eq_map_facts, Body.lines_eq_map_facts]
    exact and_congr_right fun _ => perm_map_iff (p := fun _ => True)
      (fun _ _ _ _ => BodyFact.line_eq_iff) (by simp) (by simp)
  · rw [htext, Body.text_eq_iff hu.toUnbroken hu'.toUnbroken hkey, Body.lines_eq_map_facts,
      Body.lines_eq_map_facts]
    have hfact : ∀ f g : BodyFact, f.IsPlain → g.IsPlain → (f.line = g.line ↔ id f = id g) :=
      fun f g hf hg => BodyFact.line_eq_iff.trans
        ⟨BodyFact.spelled_inj hf hg, congrArg BodyFact.spelled⟩
    rw [perm_map_iff hfact hu.facts hu'.facts, List.map_id, List.map_id]
    exact and_congr_left fun _ => ⟨Signature.text_inj hu.parameters hu'.parameters,
      congrArg Signature.text⟩

namespace Body

/-- A definition that gives no digest. -/
def runRecord : FunctionRecord where
  key := "run"
  defined := true
  signature := { params := ["int (*)(int, int)", "map<int, char>"], ret := "void" }

/-- A body that makes two calls and constructs an object. -/
def runUnit : TranslationUnit where
  functions := [runRecord]
  callSites := [{ caller := "run", target := .virtual "pool::worker" "step" },
    { caller := "run", target := .pointer (.element (.global "hooks")) }]
  lifetimeEvents :=
    [{ caller := "run", kind := .localVar, phase := .construct, className := "guard" }]

/-- The same body in another order. -/
def runReordered : TranslationUnit := { runUnit with callSites := runUnit.callSites.reverse }

/-- The body without the object. -/
def runBare : TranslationUnit := { runUnit with lifetimeEvents := [] }

theorem runReordered_identified : IsPlain runUnit runRecord ∧ IsPlain runReordered runRecord ∧
    IsPlain runBare runRecord ∧
    Fingerprint.of id runUnit runRecord = Fingerprint.of id runReordered runRecord ∧
    Fingerprint.of id runUnit runRecord ≠ Fingerprint.of id runBare runRecord := by
  have hunit : IsPlain runUnit runRecord :=
    ⟨⟨by decide, by decide⟩, ⟨by decide, by decide⟩, by decide⟩
  have hreordered : IsPlain runReordered runRecord :=
    ⟨⟨by decide, by decide⟩, ⟨by decide, by decide⟩, by decide⟩
  have hbare : IsPlain runBare runRecord :=
    ⟨⟨by decide, by decide⟩, ⟨by decide, by decide⟩, by decide⟩
  have hdigest : ∀ texts, Fingerprint.CollisionFree id texts := fun _ =>
    Function.injective_id.injOn
  refine ⟨hunit, hreordered, hbare, ?_, fun h => ?_⟩
  · exact ((Fingerprint.eq_iff_sameFacts (hdigest _) rfl rfl rfl).2.2 hunit hreordered).mpr
      ⟨rfl, by decide⟩
  · have hperm :=
      (((Fingerprint.eq_iff_sameFacts (hdigest _) rfl rfl rfl).2.2 hunit hbare).mp h).2
    exact absurd hperm.length_eq (by decide)

/-- The body with a call of another method, in whose name the name of the class goes on. -/
def runNested : TranslationUnit where
  functions := [runRecord]
  callSites := [{ caller := "run", target := .virtual "pool" "worker::step" },
    { caller := "run", target := .pointer (.element (.global "hooks")) }]
  lifetimeEvents := runUnit.lifetimeEvents

/-- The two calls are written as the same line. -/
theorem runNested_mistaken : runRecord ∈ runUnit.functions ∧ runRecord ∈ runNested.functions ∧
    runRecord.bodyHash = none ∧
    (∀ digest,
      Fingerprint.of digest runUnit runRecord = Fingerprint.of digest runNested runRecord) ∧
    ¬ (facts runUnit "run").Perm (facts runNested "run") := by
  have hlines : lines runUnit "run" = lines runNested "run" := by decide
  exact ⟨by decide, by decide, rfl,
    fun digest => congrArg digest (text_eq_of_perm rfl rfl (.of_eq hlines)), by decide⟩

end Body

end CallGraphs
