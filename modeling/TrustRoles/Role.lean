import TrustRoles.Profile

namespace TrustRoles

/-- A certificate held somewhere: equal profiles held twice are two certificates. -/
structure Identity where
  collection : Nat
  index : Nat
  deriving DecidableEq, Repr

structure Member where
  identity : Identity
  profile : Profile
  deriving DecidableEq, Repr

namespace Member

def isAuthority (m : Member) : Bool :=
  m.profile.isAuthority

def label (m : Member) : String :=
  m.profile.label

def number (collection : Nat) (profiles : List Profile) : List Member :=
  profiles.mapIdx fun i p => ⟨⟨collection, i⟩, p⟩

end Member

inductive Role where
  | signer
  | recipient
  | issuer
  deriving DecidableEq, Repr

namespace Role

def all : List Role := [signer, recipient, issuer]

def name : Role → String
  | signer => "signer"
  | recipient => "recipient"
  | issuer => "issuer"

def description : Role → String
  | signer => "message signing entity"
  | recipient => "recipient entity"
  | issuer => "issuing entity"

end Role

structure Assignment where
  signer : Member
  recipient : Member
  issuer : Member
  deriving DecidableEq, Repr

namespace Assignment

def get (a : Assignment) : Role → Member
  | .signer => a.signer
  | .recipient => a.recipient
  | .issuer => a.issuer

def isSingleAuthority (a : Assignment) : Bool :=
  a.signer.identity == a.issuer.identity && a.recipient.identity == a.issuer.identity

def dump (a : Assignment) : String :=
  "RoleSet \x7b signer: " ++ a.signer.label ++ ", recipient: " ++ a.recipient.label ++
    ", issuer: " ++ a.issuer.label ++ " \x7d"

end Assignment

end TrustRoles
