import TrustRoles.Json
import TrustRoles.Role

namespace TrustRoles

namespace Report

structure Entry where
  subject : String
  issuer : String
  serialNumber : String
  isAuthority : Bool
  pathLength : Option UInt8
  keyUsage : Option (List Usage)
  deriving DecidableEq, Repr

namespace Entry

def ofProfile (p : Profile) : Entry :=
  ⟨p.subject, p.issuer, p.serialNumber, p.isAuthority, p.standing.pathLength,
    p.keyUsage.map KeyUsage.toList⟩

def line (e : Entry) : String :=
  e.subject ++ " [issuer=" ++ e.issuer ++ "; serial=" ++ e.serialNumber ++ "]"

def toJson (e : Entry) : Json :=
  .record <|
    [("subject", .text e.subject), ("issuer", .text e.issuer),
     ("serial_number", .text e.serialNumber), ("is_ca", .boolean e.isAuthority)] ++
    (e.pathLength.map fun n => ("path_len", Json.number n.toNat)).toList ++
    [("key_usage", match e.keyUsage with
      | none => .null
      | some us => .list (us.map fun u => .text u.name))]

end Entry

structure Roles where
  signer : Entry
  recipient : Entry
  issuer : Entry
  deriving DecidableEq, Repr

namespace Roles

def ofAssignment (a : Assignment) : Roles :=
  ⟨.ofProfile a.signer.profile, .ofProfile a.recipient.profile, .ofProfile a.issuer.profile⟩

def get (r : Roles) : Role → Entry
  | .signer => r.signer
  | .recipient => r.recipient
  | .issuer => r.issuer

def toJson (r : Roles) : Json :=
  .record [("signer", r.signer.toJson), ("recipient", r.recipient.toJson),
    ("issuer", r.issuer.toJson)]

end Roles

end Report

structure Report where
  certificates : List Report.Entry
  roles : Report.Roles
  deriving DecidableEq, Repr

namespace Report

def ofMembers (members : List Member) (a : Assignment) : Report :=
  ⟨members.map fun m => .ofProfile m.profile, .ofAssignment a⟩

def padRight (width : Nat) (s : String) : String :=
  s ++ String.ofList (List.replicate (width - s.length) ' ')

def countLine (r : Report) : String :=
  "Collection contains " ++ toString r.certificates.length ++ " certificate(s)"

def listLine (position : Nat) (e : Entry) : String :=
  "  " ++ toString position ++ ". " ++ e.line ++ if e.isAuthority then " (CA)" else ""

def listLines (r : Report) : List String :=
  r.certificates.mapIdx fun i e => listLine (i + 1) e

def roleLine (r : Report) (role : Role) : String :=
  padRight 10 (role.name ++ ":") ++ " " ++ (r.roles.get role).line

def lines (r : Report) (listed : Bool) : List String :=
  r.countLine :: (if listed then r.listLines else []) ++ Role.all.map r.roleLine

def text (r : Report) (listed : Bool) : String :=
  String.join ((r.lines listed).map fun l => l ++ "\n")

def toJson (r : Report) : Json :=
  .record [("certificates", .list (r.certificates.map Entry.toJson)), ("roles", r.roles.toJson)]

end Report

end TrustRoles
