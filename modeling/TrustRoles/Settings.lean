import TrustRoles.Path
import TrustRoles.Report.Format

namespace TrustRoles

structure Settings where
  certificatePaths : List Path
  format : ReportFormat
  logLevel : String
  listed : Bool
  deriving DecidableEq, Repr

namespace Settings

def standard : Settings := ⟨[], .text, "warn", false⟩

def logLevels : List String := ["off", "error", "warn", "info", "debug", "trace"]

inductive Defect where
  | unknownLogLevel (given : String)
  | emptyPath
  deriving DecidableEq, Repr

namespace Defect

def message : Defect → String
  | unknownLogLevel given =>
      "Invalid log level: " ++ given ++ " (expected one of " ++ ", ".intercalate logLevels ++ ")"
  | emptyPath => "Empty certificate path in configuration: \"\""

def toFault (d : Defect) : Fault :=
  .configuration d.message

end Defect

def hasKnownLogLevel (s : Settings) : Bool :=
  logLevels.contains (s.logLevel.map Char.toLower)

def hasEmptyPath (s : Settings) : Bool :=
  s.certificatePaths.any fun p => p.text.isEmpty

def defect? (s : Settings) : Option Defect :=
  if !s.hasKnownLogLevel then some (.unknownLogLevel s.logLevel)
  else if s.hasEmptyPath then some .emptyPath
  else none

def check (s : Settings) : Except Fault Settings :=
  match s.defect? with
  | none => .ok s
  | some d => .error d.toFault

def toJson (s : Settings) : Json :=
  .record [("certificate_paths", .list (s.certificatePaths.map fun p => .text p.text)),
    ("output_format", .text s.format.name), ("log_level", .text s.logLevel),
    ("list_certificates", .boolean s.listed)]

end Settings

end TrustRoles
