import CallGraphs.CommandLine.Program

/-!
# Running on the system

The system that the program is started on, as a host.
-/

namespace CallGraphs

/-- The error that the system reports, by its number. -/
def FileError.ofSystem (e : IO.Error) : FileError :=
  match e with
  | .noFileOrDirectory .. => .notFound
  | .alreadyExists .. => .alreadyExists
  | .inappropriateType _ code _ => if code = 21 then .isADirectory else .notADirectory
  | e => .other (toString e)

/-- Does something on the system, and keeps its error. -/
def attempted {α : Type} (action : IO α) : IO (Except FileError α) := do
  try return .ok (← action)
  catch e => return .error (.ofSystem e)

/-- Asks the system something; an error is a no. -/
def answered (question : IO Bool) : IO Bool := do
  try question
  catch _ => return false

/-- The byte that data starts with; no text has it. -/
def dataMark : UInt8 := 0xFF

/-- What is in a file of the system. -/
def FileContent.ofBytes (bytes : ByteArray) : Except FileError FileContent :=
  let isData := bytes[0]? = some dataMark
  match String.fromUTF8? (if isData then bytes.extract 1 bytes.size else bytes) with
  | some content => .ok (if isData then .data content else .text content)
  | none => .error .notText

/-- What is written to a file of the system. -/
def FileContent.toBytes : FileContent → ByteArray
  | .text content => content.toUTF8
  | .data content => ⟨#[dataMark]⟩ ++ content.toUTF8

instance : Host IO where
  contains path := answered do return (← IO.FS.realPath path).toString ≠ ""
  isDirectory path := answered do (← IO.FS.realPath path).isDir
  read path := return (← attempted (IO.FS.readBinFile path)).bind FileContent.ofBytes
  write path content := attempted (IO.FS.writeBinFile path content.toBytes)
  makeDirectories path := attempted (IO.FS.createDirAll path)
  names path := do
    match ← attempted do (← IO.FS.realPath path).readDir with
    | .ok entries => return entries.toList.map (·.fileName)
    | .error _ => return []
  print text := do (← IO.getStdout).putStr text
  complain text := do (← IO.getStderr).putStr text
  clock := IO.monoMsNow

end CallGraphs

/-- Runs the program. -/
def main (arguments : List String) : IO UInt32 := do
  let code ← CallGraphs.CommandLine.run arguments (← IO.getEnv "CGCOLLECT_QUIET")
  return code.toUInt32
