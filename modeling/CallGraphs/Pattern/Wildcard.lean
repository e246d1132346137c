/-!
# Wildcards

A wildcard pattern is a list of pieces, each of which stands for one character
or for any run of characters.  A pattern is tried on all suffixes of a text at
once, piece by piece from the last, so the work is the length of the pattern
times that of the text.
-/

namespace CallGraphs

/-- A piece of a wildcard pattern. -/
inductive Wildcard where
  /-- Any run of characters. -/
  | run
  /-- One character that is accepted. -/
  | one (accepts : Char → Bool)

namespace Wildcard

/-- For every place in a list, whether a flag is set there or later. -/
def orLater (flags : List Bool) : List Bool :=
  flags.foldr (fun flag later => (flag || later.headD false) :: later) []

/-- For every suffix of a text, the longest first, whether the pieces match it from end to end. -/
def verdicts : List Wildcard → List Char → List Bool
  | [], text => text.map (fun _ => false) ++ [true]
  | run :: pieces, text => orLater (verdicts pieces text)
  | one accepts :: pieces, text =>
    List.zipWith (fun c matched => accepts c && matched) text (verdicts pieces text).tail ++ [false]

/-- Whether the pieces match a text from end to end. -/
def isMatch (pieces : List Wildcard) (text : List Char) : Bool :=
  (verdicts pieces text).headD false

/-! ## One piece at a time -/

theorem orLater_cons (flag : Bool) (flags : List Bool) :
    orLater (flag :: flags) = (flag || (orLater flags).headD false) :: orLater flags := rfl

theorem exists_verdicts_nil (pieces : List Wildcard) : ∃ flag, verdicts pieces [] = [flag] := by
  induction pieces with
  | nil => exact ⟨true, rfl⟩
  | cons piece pieces ih =>
    obtain ⟨flag, h⟩ := ih
    cases piece with
    | run => exact ⟨flag, by simp [verdicts, h, orLater]⟩
    | one accepts => exact ⟨false, rfl⟩

theorem exists_verdicts_cons (pieces : List Wildcard) (c : Char) (text : List Char) :
    ∃ flag, verdicts pieces (c :: text) = flag :: verdicts pieces text := by
  induction pieces generalizing c text with
  | nil => exact ⟨false, rfl⟩
  | cons piece pieces ih =>
    obtain ⟨flag, h⟩ := ih c text
    cases piece with
    | run => exact ⟨_, by rw [verdicts, h, orLater_cons, verdicts]⟩
    | one accepts =>
      cases text with
      | nil =>
        obtain ⟨last, h'⟩ := exists_verdicts_nil pieces
        exact ⟨accepts c && last, by simp [verdicts, h, h']⟩
      | cons d text =>
        obtain ⟨next, h'⟩ := ih d text
        exact ⟨accepts c && next, by simp [verdicts, h, h']⟩

/-- The verdicts on a text begin with its own and go on with those on its tail. -/
theorem verdicts_cons (pieces : List Wildcard) (c : Char) (text : List Char) :
    verdicts pieces (c :: text) = isMatch pieces (c :: text) :: verdicts pieces text := by
  obtain ⟨flag, h⟩ := exists_verdicts_cons pieces c text
  simp [isMatch, h]

/-- No pieces match the empty text only. -/
theorem isMatch_nil (text : List Char) : isMatch [] text = text.isEmpty := by
  cases text <;> rfl

/-- A run stands for nothing, or for a character and a run. -/
theorem isMatch_run_cons (pieces : List Wildcard) (c : Char) (text : List Char) :
    isMatch (run :: pieces) (c :: text) =
      (isMatch pieces (c :: text) || isMatch (run :: pieces) text) := by
  obtain ⟨flag, h⟩ := exists_verdicts_cons pieces c text
  simp [isMatch, verdicts, h, orLater_cons]

/-- A run at the end of the text stands for nothing. -/
theorem isMatch_run_nil (pieces : List Wildcard) :
    isMatch (run :: pieces) [] = isMatch pieces [] := by
  obtain ⟨flag, h⟩ := exists_verdicts_nil pieces
  simp [isMatch, verdicts, h, orLater]

/-- A piece for one character takes the first one. -/
theorem isMatch_one_cons (accepts : Char → Bool) (pieces : List Wildcard) (c : Char)
    (text : List Char) :
    isMatch (one accepts :: pieces) (c :: text) = (accepts c && isMatch pieces text) := by
  obtain ⟨flag, h⟩ := exists_verdicts_cons pieces c text
  cases hv : verdicts pieces text with
  | nil =>
    cases text with
    | nil => simpa [hv] using exists_verdicts_nil pieces
    | cons d text => simpa [hv] using exists_verdicts_cons pieces d text
  | cons next flags => simp [isMatch, verdicts, h, hv]

/-- A piece for one character does not match the empty text. -/
theorem isMatch_one_nil (accepts : Char → Bool) (pieces : List Wildcard) :
    isMatch (one accepts :: pieces) [] = false := rfl

end Wildcard

end CallGraphs
