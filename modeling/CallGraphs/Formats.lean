import CallGraphs.Formats.Dot
import CallGraphs.Formats.Listing
import CallGraphs.Formats.MetaCg

/-!
# Output formats
-/

namespace CallGraphs

/-- The formats in which a graph can be written. -/
inductive Format where
  | metacg
  | json
  | dot
deriving DecidableEq, Inhabited, Repr

namespace Format

/-- The name of a format in every text. -/
def name : Format → String
  | metacg => "metacg"
  | json => "json"
  | dot => "dot"

/-- The words for the formats. -/
def words : List (String × Format) := [("metacg", metacg), ("json", json), ("dot", dot)]

/--
The format that a word stands for.  Letter case is ignored, and some formats
have a second name.  Folding ASCII letters is enough: no other character folds
to a letter of these words.
-/
def ofWord? (word : String) : Option Format :=
  match word.toLower with
  | "metacg" | "mcg" => some metacg
  | "json" => some json
  | "dot" | "graphviz" => some dot
  | _ => none

/-- What the names of files in this format end in. -/
def extension : Format → String
  | metacg | json => "json"
  | dot => "dot"

/-- The text of a graph in this format. -/
def text (format : Format) (g : Graph) : String :=
  match format with
  | metacg => MetaCg.text g
  | json => Listing.text g
  | dot => Dot.text g

end Format

end CallGraphs
