import CallGraphs.Data.Word
import CallGraphs.Text.Numerals

/-!
# Command-line arguments

Options and other arguments.  An option has a long name after two dashes, and
may have a letter after one dash; letters may be written together.  An option
with a value takes what follows its name and an equals sign, what follows its
letter, or the next argument, unless that is an option itself.  No option may
be given twice, and after two dashes alone nothing is an option.  Arguments
are taken one by one, and the first that is wrong, or asks for help, ends the
matter.
-/

namespace CallGraphs

namespace CommandLine

/-- What the value of an option must be. -/
inductive ValueKind where
  | text
  /-- A path, which is never empty. -/
  | path
  | count
deriving DecidableEq, Inhabited, Repr

/-- A count in decimal digits, with or without a plus sign. -/
def readCount (text : String) : Option Nat :=
  let digits := match text.toList with
    | '+' :: rest => rest
    | cs => cs
  let n := decimalValue digits
  if digits.isEmpty || !digits.all Char.isDigit || wordLimit ≤ n then none else some n

namespace ValueKind

/-- Whether a text is such a value. -/
def accepts : ValueKind → String → Bool
  | text, _ => true
  | path, value => !value.isEmpty
  | count, value => (readCount value).isSome

end ValueKind

/-- An option. -/
structure OptionSpec where
  name : String
  letter : Option Char := none
  /-- What its value is, if it has one. -/
  value : Option ValueKind := none
  /-- The value that it has when it is not given. -/
  preset : Option String := none
  /-- What it is for. -/
  about : String := ""
deriving DecidableEq, Inhabited, Repr

/-- What help can be asked for. -/
inductive HelpTopic where
  /-- The program as a whole, in brief or in full. -/
  | program (brief : Bool)
  /-- A command. -/
  | command (name : String)
deriving DecidableEq, Inhabited, Repr

/-- Why arguments are not carried out as a command. -/
inductive Refusal where
  /-- They are no command. -/
  | usage
  /-- Help is asked for. -/
  | help (topic : HelpTopic)
  /-- The version is asked for. -/
  | version
deriving DecidableEq, Inhabited, Repr

namespace Refusal

/-- The refusal of arguments that follow the name of a command. -/
def after (command : String) : Refusal → Refusal
  | help _ => help (.command command)
  | refusal => refusal

end Refusal

/-! ## One argument -/

/-- An option as it was given. -/
structure Given where
  option : OptionSpec
  value : Option String := none
  /-- It was given by its letter. -/
  byLetter : Bool := false
deriving DecidableEq, Inhabited, Repr

/-- What follows the options of an argument. -/
inductive Ending where
  | nothing
  /-- An option whose value is the next argument. -/
  | waiting (option : OptionSpec)
  /-- Something that is no option. -/
  | unknown
deriving DecidableEq, Inhabited, Repr

/-- What one argument says. -/
structure Reading where
  given : List Given := []
  ending : Ending := .nothing
deriving DecidableEq, Inhabited, Repr

/-- The options that letters stand for. -/
def readLetters (specs : List OptionSpec) : List Char → Reading
  | [] => {}
  | c :: rest =>
    match specs.find? (·.letter = some c) with
    | none => { ending := .unknown }
    | some spec =>
      if spec.value.isSome then
        match rest with
        | [] => { ending := .waiting spec }
        | '=' :: text => { given := [{ option := spec, value := some (String.ofList text) }] }
        | text => { given := [{ option := spec, value := some (String.ofList text) }] }
      else
        let others := readLetters specs rest
        { others with given := { option := spec, byLetter := true } :: others.given }

/-- The option that a long name stands for. -/
def readName (specs : List OptionSpec) (cs : List Char) : Reading :=
  let (name, tail) := cs.span (· ≠ '=')
  match specs.find? (·.name = String.ofList name), tail with
  | none, _ => { ending := .unknown }
  | some spec, [] =>
    if spec.value.isSome then { ending := .waiting spec } else { given := [{ option := spec }] }
  | some spec, _ :: text =>
    if spec.value.isSome then { given := [{ option := spec, value := some (String.ofList text) }] }
    else { ending := .unknown }

/-- What an argument with a dash in front says. -/
def readOption (specs : List OptionSpec) (argument : String) : Reading :=
  match argument.toList with
  | '-' :: '-' :: name => readName specs name
  | '-' :: letters => readLetters specs letters
  | _ => { ending := .unknown }

/-- Whether an argument is an option by its form; one dash alone is not. -/
def isOption (argument : String) : Bool := argument.startsWith "-" && argument ≠ "-"

/-! ## All arguments -/

/-- The options and the other arguments that were given. -/
structure Matches where
  options : List Given := []
  others : List String := []
deriving DecidableEq, Inhabited, Repr

namespace Matches

/-- Whether an option was given. -/
def has (given : Matches) (name : String) : Bool := given.options.any (·.option.name = name)

/-- The value that an option was given. -/
def value? (given : Matches) (name : String) : Option String :=
  (given.options.find? (·.option.name = name)).bind (·.value)

/-- The count that an option was given. -/
def count? (given : Matches) (name : String) : Option Nat := (given.value? name).bind readCount

/-- Adds an option; asking for help or the version ends the matter. -/
def addOption (given : Matches) (new : Given) : Except Refusal Matches :=
  if new.option.name = "help" then .error (.help (.program new.byLetter))
  else if new.option.name = "version" then .error .version
  else
    let fits := match new.option.value, new.value with
      | some kind, some value => kind.accepts value
      | _, _ => true
    if given.has new.option.name || !fits then .error .usage
    else .ok { given with options := given.options ++ [new] }

/-- Adds other arguments, of which there may be at most so many. -/
def addOthers (given : Matches) (most : Option Nat) (others : List String) :
    Except Refusal Matches :=
  let others := given.others ++ others
  if most.all (others.length ≤ ·) then .ok { given with others } else .error .usage

end Matches

/--
Reads arguments, of which at most so many may be other than options.  With
`untilOther` it stops at the first that is no option, and gives that argument
and the rest.
-/
def readArguments (specs : List OptionSpec) (untilOther : Bool) (most : Option Nat) :
    Matches → List String → Except Refusal (Matches × Option (String × List String))
  | given, [] => .ok (given, none)
  | given, "--" :: rest =>
    if untilOther then .error .usage
    else do return (← given.addOthers most rest, none)
  | given, argument :: rest => do
    if isOption argument then
      let reading := readOption specs argument
      let given ← reading.given.foldlM Matches.addOption given
      match reading.ending, rest with
      | .nothing, rest => readArguments specs untilOther most given rest
      | .waiting spec, value :: rest =>
        if isOption value then .error .usage
        else
          let given ← given.addOption { option := spec, value := some value }
          readArguments specs untilOther most given rest
      | .waiting _, [] => .error .usage
      | .unknown, _ => .error .usage
    else if untilOther then .ok (given, some (argument, rest))
    else readArguments specs untilOther most (← given.addOthers most [argument]) rest

end CommandLine

end CallGraphs
