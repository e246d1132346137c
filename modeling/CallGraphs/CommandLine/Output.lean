import CallGraphs.CommandLine.Tables
import CallGraphs.Files.Host
import CallGraphs.Graph.Diagnostic
import CallGraphs.Json.Printer

/-!
# What commands print

Results go out either as lines for a reader or as one JSON object; the object
says whether the command succeeded.
-/

namespace CallGraphs

namespace CommandLine

variable {m : Type → Type} [Monad m] [Host m]

/-- Prints a line. -/
def printLine (text : String) : m Unit := Host.print (text ++ "\n")

/-- Prints lines. -/
def printLines : List String → m Unit
  | [] => pure ()
  | line :: rest => do
    printLine line
    printLines rest

/-- Prints the heading of a section. -/
def printSection (title : String) : m Unit := printLines ["", "━" ++ title ++ "━"]

/-- Prints a value under a label. -/
def printStatus (icon label value : String) : m Unit :=
  printLine (icon ++ " " ++ label ++ ": " ++ value)

/-- Prints what a walk found. -/
def printHits (title : String) (hits : List CallHit) : m Unit := do
  printSection title
  printLines (if hits.isEmpty then ["  none"] else hitLines hits)

/-- A diagnostic as a line, with a mark for its gravity. -/
def diagnosticLine (d : Diagnostic) : String :=
  let icon := match d.finding with
    | .malformedFact .. => "⚠️"
    | .unresolvedCall .. => "🟠"
    | .odrConflict .. => "❌"
  icon ++ " " ++ d.text

/-- A text in bold on a terminal. -/
def bold (text : String) : String := "\x1b[1m" ++ text ++ "\x1b[0m"

/-- The object that a command that succeeded prints. -/
def successJson (command : String) (data : Json) : Json :=
  .sortKeys (.object [("ok", .bool true), ("command", .string command), ("data", data)])

/-- The object that a command that failed prints. -/
def failureJson (message : String) : Json :=
  .sortKeys (.object [("ok", .bool false), ("error", .string message)])

/-- Prints a result, for a reader or as an object. -/
def printResult (json : Bool) (command : String) (data : Json) (lines : m Unit) : m Unit :=
  if json then printLine (successJson command data).pretty else lines

end CommandLine

end CallGraphs
