import CallGraphs.CommandLine.Commands
import CallGraphs.CommandLine.Help

/-!
# The program

From arguments to an exit code: a command that succeeds exits with 0, one that
fails with 1, and arguments that are no command with 2.
-/

namespace CallGraphs

namespace CommandLine

variable {m : Type → Type} [Monad m] [Host m]

/-- The version that the program reports. -/
def versionText : String := programName ++ " 0.1.0"

/-- Carries out a command. -/
def perform (invocation : Invocation) (style : Style) : Run m Unit := do
  let given ← attempt .config (Config.load (invocation.config.getD Config.defaultPath))
  let config := given.getD {}
  let database := databasePath invocation.database config
  match invocation.command with
  | .build request =>
    let settings ← attempt .format (pure (BuildSettings.ofRequest config request))
    build request.facts settings style
  | .callers function depth definite => walk .incoming database function depth definite style
  | .callees function depth definite => walk .outgoing database function depth definite style
  | .reach entry definite => reach database entry definite style
  | .find pattern regex limit => find database pattern regex limit style
  | .stats => stats database style
  | .diagnostics label => diagnostics database label style
  | .init force => init (invocation.config.getD Config.defaultPath) force style

/-- Whether a setting of the environment asks for quiet. -/
def asksForQuiet (setting : Option String) : Bool :=
  setting.any fun value => value = "1" || value.toLower = "true"

/-- Tells why a command failed. -/
def tell (json : Bool) (e : CommandError) : m Unit :=
  if json then printLine (failureJson e.message).compact
  else Host.complain ("❌ " ++ e.message ++ "\n")

/-- Runs the program on its arguments and the setting of the environment for quiet. -/
def run (arguments : List String) (quietSetting : Option String) : m Nat := do
  match Invocation.read arguments with
  | .error .version =>
    printLine versionText
    return 0
  | .error (.help topic) =>
    Host.print topic.text
    return 0
  | .error .usage =>
    Host.complain (HelpTopic.program true).text
    return 2
  | .ok invocation =>
    let style : Style := {
      json := invocation.json
      quiet := invocation.quiet || invocation.json || asksForQuiet quietSetting }
    match ← (perform invocation style).run with
    | .ok () => return 0
    | .error e =>
      tell invocation.json e
      return 1

end CommandLine

end CallGraphs
