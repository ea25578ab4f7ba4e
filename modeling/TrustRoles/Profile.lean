import TrustRoles.KeyUsage
import TrustRoles.Standing
import TrustRoles.Text.Quoted

namespace TrustRoles

structure Profile where
  issuer : String
  subject : String
  serialNumber : String
  standing : Standing
  keyUsage : Option KeyUsage
  extensionCount : Option Nat
  deriving DecidableEq, Repr

namespace Profile

def isAuthority (p : Profile) : Bool :=
  p.standing.isAuthority

def label (p : Profile) : String :=
  "[issuer=" ++ p.issuer ++ "; serial=" ++ p.serialNumber ++ "]"

def dump (p : Profile) : String :=
  let usage := match p.keyUsage with
    | none => "None"
    | some k => "Some(" ++ k.dump ++ ")"
  "CertificateView \x7b issuer: " ++ Text.quoted p.issuer ++ ", serial: " ++
    Text.quoted p.serialNumber ++ ", ca: " ++ p.standing.dump ++ ", key_usage: " ++ usage ++ " \x7d"

end Profile

end TrustRoles
