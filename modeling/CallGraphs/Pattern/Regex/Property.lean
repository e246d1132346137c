import CallGraphs.Text.Properties
import CallGraphs.Text.Script

/-!
# Classes by property

The classes that an expression names by a property of Unicode: a category, a
script, or a property that a character has or has not.  In names case does not
count, nor do blanks, dashes and underscores, nor an `is` in front.
-/

namespace CallGraphs

namespace Regex

/-! ## Names -/

/-- A name without its `is`, if it has one. -/
def withoutIs : List Char → List Char
  | i :: s :: rest => if i.toLower = 'i' && s.toLower = 's' then rest else i :: s :: rest
  | cs => cs

/-- What counts of a name.  An `is` before a single `c` is not taken for one: together they are
the name of something else. -/
def looseName (name : String) : String :=
  let counts (c : Char) : Bool := c.toNat < 0x80 && c ≠ ' ' && c ≠ '_' && c ≠ '-'
  let cs := name.toList
  let short := ((withoutIs cs).filter counts).map Char.toLower
  if short = ['c'] && (withoutIs cs).length < cs.length then "isc" else String.ofList short

/-! ## Classes -/

/-- The names that several categories have together, and further names of single ones. -/
def categoryGroups : List (List String × (Category → Bool)) :=
  [(["l", "letter"], fun c => c.major = .letter),
   (["lc", "casedletter"], Category.isCased),
   (["m", "mark", "combiningmark"], fun c => c.major = .mark),
   (["n", "number"], fun c => c.major = .number),
   (["p", "punctuation", "punct"], fun c => c.major = .punctuation),
   (["s", "symbol"], fun c => c.major = .symbol),
   (["z", "separator"], fun c => c.major = .separator),
   (["c", "other"], fun c => c.major = .other),
   (["assigned"], fun c => c ≠ .unassigned),
   (["any"], fun _ => true),
   (["digit"], fun c => c = .decimalNumber),
   (["cntrl"], fun c => c = .control)]

/-- The class of a category or of several.  Surrogates are no characters and have no class. -/
def categoryClass? (name : String) : Option CodeRanges :=
  if name = "ascii" then some .ascii
  else
    match categoryGroups.find? (name ∈ ·.1) with
    | some (_, wanted) => some (Category.characters wanted)
    | none =>
      (Category.labels.find? fun (category, code, long) =>
        category ≠ .surrogate && (looseName code = name || looseName long = name)).map
        fun (category, _) => Category.characters (· = category)

/-- Codes that scripts had before. -/
def formerScripts : List (String × String) := [("qaac", "Copt"), ("qaai", "Zinh")]

/-- The class of a script. -/
def scriptClass? (name : String) : Option CodeRanges :=
  let known := Script.names.find? fun (code, long) => looseName code = name || looseName long = name
  (formerScripts.lookup name <|> known.map (·.1)).map Script.characters

/-- The properties that a character has or has not. -/
def propertyClasses : List (List String × CodeRanges) :=
  [(["alphabetic", "alpha"], alphabeticCharacters),
   (["lowercase", "lower"], lowercaseCharacters),
   (["uppercase", "upper"], uppercaseCharacters),
   (["cased"], casedCharacters),
   (["whitespace", "wspace", "space"], blankCharacters),
   (["idstart", "ids"], identifierStarts),
   (["idcontinue", "idc"], identifierCharacters),
   (["xidstart", "xids"], identifierStarts.diff expandingStarts),
   (["xidcontinue", "xidc"], identifierCharacters.diff expandingCharacters),
   (["asciihexdigit", "ahex"], hexDigits.inter .ascii),
   (["hexdigit", "hex"], hexDigits),
   (["dash"], dashes),
   (["quotationmark", "qmark"], quotationMarks),
   (["ideographic", "ideo"], ideographs),
   (["unifiedideograph", "uideo"], unifiedIdeographs),
   (["joincontrol", "joinc"], joiners),
   (["variationselector", "vs"], variationSelectors),
   (["bidicontrol", "bidic"], directionControls),
   (["noncharactercodepoint", "nchar"], noncharacters),
   (["patternwhitespace", "patws"], patternBlanks),
   (["regionalindicator", "ri"], [(0x1F1E6, 0x1F1FF)]),
   (["emoji"], emoji),
   (["emojipresentation", "epres"], emojiByDefault),
   (["emojimodifier", "emod"], [(0x1F3FB, 0x1F3FF)]),
   (["emojicomponent", "ecomp"], emojiComponents),
   (["extendedpictographic", "extpict"], pictographs)]

/-- The class of a property that a character has or has not. -/
def propertyClass? (name : String) : Option CodeRanges :=
  (propertyClasses.find? (name ∈ ·.1)).map (·.2)

/-- The class of a name: a property, a category or a script. -/
def classOfName? (name : String) : Option CodeRanges :=
  let name := looseName name
  propertyClass? name <|> categoryClass? name <|> scriptClass? name

/-- The class of the characters for which a property has a value. -/
def classOfValue? (property value : String) : Option CodeRanges :=
  match looseName property with
  | "gc" | "generalcategory" => categoryClass? (looseName value)
  | "sc" | "script" => scriptClass? (looseName value)
  | _ => none

/-- The two parts of a text around the first place where a sign stands. -/
def around (sign text : String) : Option (String × String) :=
  match text.splitOn sign with
  | first :: second :: rest => some (first, sign.intercalate (second :: rest))
  | _ => none

/-- The class that a text between braces names, alone or as a property and its value. -/
def classOfText? (text : String) : Option CodeRanges :=
  match around "!=" text <|> around ":" text <|> around "=" text with
  | some (property, value) => classOfValue? property value
  | none => classOfName? text

end Regex

end CallGraphs
