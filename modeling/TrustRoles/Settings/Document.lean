import TrustRoles.Settings
import TrustRoles.Toml.Document
import TrustRoles.Toml.Written

namespace TrustRoles

namespace Settings

def paths? : Toml.Value → Option (List Path)
  | .array items => items.mapM fun
      | .text s => some ⟨s⟩
      | _ => none
  | _ => none

def isEmptyValue : Toml.Value → Bool
  | .array items => items.isEmpty
  | .table _ entries => entries.isEmpty
  | _ => false

def format? : Toml.Value → Option ReportFormat
  | .text s => ReportFormat.ofName? s
  | .table _ [(k, v)] => if isEmptyValue v then ReportFormat.ofName? k else none
  | _ => none

def text? : Toml.Value → Option String
  | .text s => some s
  | _ => none

def boolean? : Toml.Value → Option Bool
  | .boolean b => some b
  | _ => none

def field? {α : Type} (es : Toml.Entries) (key : String) (absent : α)
    (read : Toml.Value → Option α) : Option α :=
  match es.lookup key with
  | none => some absent
  | some v => read v

def ofEntries? (es : Toml.Entries) : Option Settings := do
  let certificatePaths ← field? es "certificate_paths" standard.certificatePaths paths?
  let format ← field? es "output_format" standard.format format?
  let logLevel ← field? es "log_level" standard.logLevel text?
  let listed ← field? es "list_certificates" standard.listed boolean?
  some ⟨certificatePaths, format, logLevel, listed⟩

def unreadable : String := "malformed settings"

def ofText (s : String) : Except Fault Settings :=
  match (Toml.document? s.toList).bind ofEntries? with
  | some settings => .ok settings
  | none => .error (.configuration ("Failed to parse config file: " ++ unreadable))

def written (s : String) : List Char :=
  Toml.writtenString s.toList

def toText (s : Settings) : String :=
  String.ofList <|
    Toml.entryLine "certificate_paths"
      (Toml.writtenArray (s.certificatePaths.map fun p => written p.text)) ++
    Toml.entryLine "output_format" (written s.format.name) ++
    Toml.entryLine "log_level" (written s.logLevel) ++
    Toml.entryLine "list_certificates" (Toml.writtenBoolean s.listed)

end Settings

inductive SettingsFormat where
  | toml
  | json
  deriving DecidableEq, Repr

namespace SettingsFormat

def all : List SettingsFormat := [toml, json]

def name : SettingsFormat → String
  | toml => "toml"
  | json => "json"

def ofName? (s : String) : Option SettingsFormat :=
  all.find? fun f => f.name == s

end SettingsFormat

def Settings.render (s : Settings) : SettingsFormat → String
  | .toml => s.toText
  | .json => s.toJson.pretty

end TrustRoles
