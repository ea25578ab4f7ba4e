import TrustRoles.Failure
import TrustRoles.Report

namespace TrustRoles

inductive ReportFormat where
  | text
  | json
  deriving DecidableEq, Repr

namespace ReportFormat

def all : List ReportFormat := [text, json]

def name : ReportFormat → String
  | text => "text"
  | json => "json"

def ofName? (s : String) : Option ReportFormat :=
  all.find? fun f => f.name == s

def ofText (s : String) : Except Fault ReportFormat :=
  let lower := s.map Char.toLower
  match ofName? lower with
  | some f => .ok f
  | none => .error (.configuration ("Invalid output format: " ++ lower))

@[simp] theorem ofName?_name (f : ReportFormat) : ofName? f.name = some f := by
  cases f <;> decide

end ReportFormat

namespace Report

def render (r : Report) (listed : Bool) : ReportFormat → String
  | .text => r.text listed
  | .json => r.toJson.pretty ++ "\n"

end Report

end TrustRoles
