import CallGraphs.Facts.Encoding
import CallGraphs.Json.Parser

/-!
# Fact files

A fact file holds the JSON document of one translation unit.
-/

namespace CallGraphs

namespace TranslationUnit

/-- The unit under its own name, or under the given one if it has none. -/
def named (u : TranslationUnit) (name : String) : TranslationUnit :=
  if u.name.isEmpty then { u with name } else u

/-- The unit in the text of a fact file; a unit without a name is named after the file. -/
def ofFile? (path text : String) : Option TranslationUnit := do
  return (← ofJson? (← Json.parse? text)).named path

end TranslationUnit

end CallGraphs
