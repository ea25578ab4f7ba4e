namespace TrustRoles

structure BasicConstraints where
  ca : Bool
  pathLength : Option UInt8
  deriving DecidableEq, Repr

inductive Standing where
  | endEntity
  | authority (pathLength : Option UInt8)
  deriving DecidableEq, Repr

namespace Standing

def ofConstraints (c : BasicConstraints) : Standing :=
  if c.ca then authority c.pathLength else endEntity

def unlimited : UInt32 := 4294967295

def isAuthority : Standing → Bool
  | endEntity => false
  | authority _ => true

def pathLength : Standing → Option UInt8
  | endEntity => none
  | authority n => n

def allowance : Standing → Option UInt32
  | endEntity => none
  | authority none => some unlimited
  | authority (some n) => some n.toUInt32

def dump : Standing → String
  | endEntity => "EndEntity"
  | authority none => "Ca \x7b path_len: None \x7d"
  | authority (some n) => "Ca \x7b path_len: Some(" ++ toString n.toNat ++ ") \x7d"

theorem isSome_allowance (s : Standing) : s.allowance.isSome = s.isAuthority := by
  rcases s with _ | _ | _ <;> rfl

end Standing

end TrustRoles
