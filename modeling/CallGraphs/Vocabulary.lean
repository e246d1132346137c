import CallGraphs.Formats

/-!
# Words for kinds, confidences and formats

What a reader of words says about a word that it does not know.
-/

namespace CallGraphs

/-- A word that names nothing of its sort. -/
structure UnknownWord where
  sort : String
  word : String
deriving DecidableEq, Inhabited, Repr

namespace UnknownWord

/-- The word as it was given, and what it should have named. -/
def message (e : UnknownWord) : String := "Config error: Unknown " ++ e.sort ++ ": " ++ e.word

end UnknownWord

/-- Reads a word, and keeps it for the message when it is unknown. -/
def readWord {α : Type} (sort : String) (ofWord? : String → Option α) (word : String) :
    Except UnknownWord α :=
  match ofWord? word with
  | some value => .ok value
  | none => .error { sort, word }

/-- The kind of edge that a word names. -/
def EdgeKind.ofWord : String → Except UnknownWord EdgeKind := readWord "edge kind" ofWord?

/-- The confidence that a word names. -/
def Confidence.ofWord : String → Except UnknownWord Confidence := readWord "confidence" ofWord?

/-- The format that a word names. -/
def Format.ofWord : String → Except UnknownWord Format := readWord "output format" ofWord?

end CallGraphs
