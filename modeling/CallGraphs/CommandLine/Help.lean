import CallGraphs.CommandLine.Invocation

/-!
# Help

The pages that tell how the program and its commands are used.  A page has
what the thing is for, how it is called, and lists of commands, arguments and
options with what each is for.  In a list the descriptions stand in a column;
on the full page of the program those of options stand below, indented.
-/

namespace CallGraphs

namespace CommandLine

/-- The name that the program is called by. -/
def programName : String := "cgcollect"

/-! ## Lists -/

/-- An entry of a list, and what it is for. -/
abbrev HelpRow := String × String

/-- A list with its descriptions in a column, two blanks after the longest entry. -/
def columns (rows : List HelpRow) : List String :=
  let width := (rows.map (·.1.length)).foldl max 0
  rows.map fun (entry, about) =>
    "  " ++ entry ++ String.ofList (List.replicate (width - entry.length + 2) ' ') ++ about

/-- A list with each description below its entry and a blank line between entries. -/
def paragraphs (rows : List HelpRow) : List String :=
  ((rows.map fun (entry, about) => ["  " ++ entry, "          " ++ about]).intersperse [""]).flatten

/-- A list under a heading, set apart from what is before it; nothing if there is no entry. -/
def helpSection (heading : String) (lines : List String) : List String :=
  if lines.isEmpty then [] else ["", heading ++ ":"] ++ lines

/-! ## Options -/

namespace OptionSpec

/-- What stands for the value of an option. -/
def placeholder (option : OptionSpec) : String :=
  "<" ++ option.name.map (fun c => if c = '-' then '_' else c.toUpper) ++ ">"

/-- An option as a page shows it; the names are in one column, with or without a letter. -/
def entry (option : OptionSpec) : String :=
  let letter := match option.letter with
    | some c => "-" ++ c.toString ++ ", "
    | none => "    "
  letter ++ "--" ++ option.name ++
    if option.value.isSome then " " ++ option.placeholder else ""

/-- What an option is for, and the value that it has when it is not given. -/
def description (option : OptionSpec) : String :=
  match option.preset with
  | some value => option.about ++ " [default: " ++ value ++ "]"
  | none => option.about

/-- What options are sorted by where their places say nothing. -/
def sortKey (option : OptionSpec) : String :=
  match option.letter with
  | some c => c.toLower.toString ++ if c.isLower then "0" else "1"
  | none => option.name

end OptionSpec

/--
Two lists of options as one.  Each option keeps its place among those of its
list, and of two at one place the first by letter or name comes first.
-/
def mingle (own common : List OptionSpec) : List OptionSpec :=
  let key (e : OptionSpec × Nat) := (e.2, e.1.sortKey)
  let le a b := (key a).1 < (key b).1 || ((key a).1 = (key b).1 && (key a).2 ≤ (key b).2)
  ((own.zipIdx ++ common.zipIdx).mergeSort le).map (·.1)

/-- The rows for options. -/
def optionRows (options : List OptionSpec) : List HelpRow :=
  options.map fun option => (option.entry, option.description)

/-! ## Pages -/

namespace OtherSpec

/-- An argument as a page shows it. -/
def entry (other : OtherSpec) : String :=
  "<" ++ other.name ++ ">" ++ if other.repeats then "..." else ""

end OtherSpec

/-- The line that tells how something is called. -/
def usageLine (words : List String) : String :=
  "Usage: " ++ " ".intercalate (programName :: words)

/-- What asking for help by name does. -/
def helpAbout : String := "Print this message or the help of the given subcommand(s)"

/-- The page on a command. -/
def CommandSpec.page (spec : CommandSpec) : List String :=
  let others := spec.other.toList
  [spec.about, "", usageLine (spec.name :: "[OPTIONS]" :: others.map OtherSpec.entry)]
    ++ helpSection "Arguments" (columns (others.map fun other => (other.entry, other.about)))
    ++ helpSection "Options"
      (columns (optionRows (mingle spec.options commonOptions ++ [helpOption])))

/-- The page on asking for help by name. -/
def helpPage : List String :=
  [helpAbout, "", usageLine ["help", "[COMMAND]..."]]
    ++ helpSection "Arguments" (columns [("[COMMAND]...", "Print help for the subcommand(s)")])

/-- What the program is for, in full. -/
def programAbout : List String :=
  ["cgcollect merges per-translation-unit facts into a whole-program call graph:",
   "  • Virtual calls resolved by class-hierarchy analysis",
   "  • Function and member-function pointers resolved by pointer flow",
   "  • Implicit constructor/destructor calls",
   "  • Cross-TU merging with ODR conflict detection",
   "",
   "Example usage:",
   "  cgcollect init",
   "  cgcollect build 'facts/*.json' -o callgraph.json",
   "  cgcollect callers 'A::~A' --depth 3",
   "  cgcollect reach main",
   ""]

/-- The rows for commands. -/
def commandRows : List HelpRow :=
  commandSpecs.map (fun spec => (spec.name, spec.about)) ++ [("help", helpAbout)]

/-- The page on the program. -/
def programPage (brief : Bool) : List String :=
  let more := if brief then " (see more with '--help')" else " (see a summary with '-h')"
  let help := { helpOption with about := helpOption.about ++ more }
  let about := if brief then ["Whole-program call graph construction for C/C++"]
    else programAbout
  let options := optionRows (commonOptions ++ [help, versionOption])
  about ++ ["", usageLine ["[OPTIONS]", "<COMMAND>"]]
    ++ helpSection "Commands" (columns commandRows)
    ++ helpSection "Options" (if brief then columns options else paragraphs options)

namespace HelpTopic

/-- The lines of the page on a topic. -/
def page : HelpTopic → List String
  | program brief => programPage brief
  | command name =>
    match commandSpec? name with
    | some spec => spec.page
    | none => helpPage

/-- The text of the page on a topic. -/
def text (topic : HelpTopic) : String := String.join (topic.page.map (· ++ "\n"))

end HelpTopic

end CommandLine

end CallGraphs
