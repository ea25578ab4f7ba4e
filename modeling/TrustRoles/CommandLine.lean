import TrustRoles.CommandLine.Invocation
import TrustRoles.Inspection
import TrustRoles.Settings.File

namespace TrustRoles

namespace CommandLine

structure Outcome where
  status : Nat
  output : String
  complaint : String
  logLevel : String
  deriving DecidableEq, Repr

namespace Outcome

def done (output : String) : Outcome := ⟨0, output, "", Settings.standard.logLevel⟩

def failed (f : Fault) : Outcome := ⟨1, "", f.message, Settings.standard.logLevel⟩

def misused (m : Misuse) : Outcome := ⟨2, "", m.message, Settings.standard.logLevel⟩

def loggedAt (level : String) (o : Outcome) : Outcome :=
  { o with logLevel := level }

def ofTask (t : DiskTask String) : DiskProgram Outcome := do
  match ← t.run with
  | .ok output => pure (.done output)
  | .error f => pure (.failed f)

end Outcome

def programName : String := "certstore-roles"

def versionText : String := programName ++ " 0.1.0\n"

def usage : String :=
  "Usage: " ++ programName ++ " [--config FILE] COMMAND\n\n" ++
  "  inspect [PATH]... [-f text|json] [-l] [-v]\n" ++
  "  config show | init | path | export [-f toml|json] [-o FILE]\n"

def stopped : Stop → Outcome
  | .misuse m => .misused m
  | .help => .done usage
  | .version => .done versionText

def line (s : String) : String :=
  s ++ "\n"

def pathLines (paths : List Path) : String :=
  if paths.isEmpty then line "  Certificate paths: (none)"
  else line "  Certificate paths:" ++ String.join (paths.map fun p => line ("    " ++ p.text))

def settingsText (f : SettingsFile) (s : Settings) : String :=
  line "📋 Current Configuration:" ++ pathLines s.certificatePaths ++
    line ("  Output format: " ++ s.format.name) ++ line ("  Log level: " ++ s.logLevel) ++
    line ("  List certificates: " ++ if s.listed then "true" else "false") ++
    line ("  Configuration file: " ++ f.path.text)

def showSettings (f : SettingsFile) : DiskTask String := do
  match ← f.loadExisting with
  | some s => pure (settingsText f s)
  | none => pure (line "📋 No configuration file found. Use 'config init' to create one.")

def createSettings (f : SettingsFile) : DiskTask String := do
  let _ ← f.loadOrCreate
  pure (line ("✅ Configuration initialized: " ++ f.path.text))

def exportSettings (f : SettingsFile) (format : SettingsFormat) (output : Option Path) :
    DiskTask String := do
  let text ← f.render format
  match output with
  | none => pure (line text)
  | some p =>
      match ← DiskProgram.write p (Text.utf8 text) with
      | .error e => throw (.io e.message)
      | .ok () => pure (line ("✅ Configuration exported to: " ++ p.text))

def report (paths : List Path) : DiskTask Report := do
  let (outcome, _) ← Inspection.inspectPaths (fun _ => false) 0 0 paths .empty
  liftExcept outcome

def inspect (s : Settings) (paths : List Path) (format : Option ReportFormat) (listed : Bool) :
    DiskTask String := do
  let r ← report (if paths.isEmpty then s.certificatePaths else paths)
  pure (r.render (listed || s.listed) (format.getD s.format))

def carryOut (f : SettingsFile) : Command → DiskProgram Outcome
  | .inspect paths format listed verbose => do
      match ← f.loadOrDefault.run with
      | .error e => pure (.failed e)
      | .ok s =>
          let outcome ← Outcome.ofTask (inspect s paths format listed)
          pure (outcome.loggedAt (if verbose then "debug" else s.logLevel))
  | .showSettings => Outcome.ofTask (showSettings f)
  | .createSettings => Outcome.ofTask (createSettings f)
  | .showPath => pure (.done (line f.path.text))
  | .exportSettings format output => Outcome.ofTask (exportSettings f format output)

def settingsFile (e : Environment) : Option Path → SettingsFile
  | some p => ⟨p⟩
  | none => .standard e

def run (e : Environment) (args : List String) : DiskProgram Outcome :=
  match Invocation.ofArguments args with
  | .error s => pure (stopped s)
  | .ok i => carryOut (settingsFile e i.settingsPath) i.command

end CommandLine

end TrustRoles
