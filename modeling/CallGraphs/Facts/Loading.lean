import CallGraphs.Facts.Document
import CallGraphs.Files.Search

/-!
# Loading fact files
-/

namespace CallGraphs

/-- Why a fact file gives no unit. -/
inductive LoadError where
  /-- The file cannot be opened. -/
  | unreadable (error : FileError)
  /-- What is in the file is no unit. -/
  | malformed (detail : String)
deriving DecidableEq, Inhabited, Repr

namespace LoadError

/-- The error in words, and after it its cause. -/
def message : LoadError → String
  | unreadable e => "IO error: " ++ e.message ++ ": " ++ e.message
  | malformed detail => "Invalid fact stream: " ++ detail ++ ": " ++ detail

end LoadError

namespace Facts

variable {m : Type → Type} [Monad m] [Host m]

/-- The unit in a file.  A directory can be opened, but has no unit in it. -/
def load (path : String) : m (Except LoadError TranslationUnit) := do
  match ← Host.readText path with
  | .error .isADirectory => return .error (.malformed FileError.isADirectory.message)
  | .error .notText => return .error (.malformed FileError.notText.message)
  | .error e => return .error (.unreadable e)
  | .ok text =>
    match TranslationUnit.ofFile? path text with
    | some unit => return .ok unit
    | none => return .error (.malformed "not a translation unit")

/-- The units in files, up to the first file that gives none. -/
def loadAll : List String → m (Except LoadError (List TranslationUnit))
  | [] => return .ok []
  | path :: rest => do
    match ← load path with
    | .error e => return .error e
    | .ok unit =>
      match ← loadAll rest with
      | .error e => return .error e
      | .ok units => return .ok (unit :: units)

end Facts

end CallGraphs
