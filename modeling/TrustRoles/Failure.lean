import TrustRoles.Role

namespace TrustRoles

structure QueryFailure where
  reason : String
  deriving DecidableEq, Repr

namespace QueryFailure

def message (f : QueryFailure) : String :=
  "Certificate store query failed: " ++ f.reason

def code : String := "certstore::query"

end QueryFailure

inductive RoleFailure where
  | query (f : QueryFailure)
  | notFound (role : Role)
  deriving DecidableEq, Repr

namespace RoleFailure

def message : RoleFailure → String
  | query f => f.message
  | notFound role => "No CA certificates found for the " ++ role.name ++ " role"

def code : RoleFailure → String
  | query _ => QueryFailure.code
  | notFound _ => "certstore::not_found"

def help? : RoleFailure → Option String
  | query _ => none
  | notFound _ => some "the collection needs a certificate with basicConstraints cA=TRUE"

end RoleFailure

inductive Defect where
  | constraints (payload : List UInt8)
  | keyUsage (payload : List UInt8)
  | certificate (encoding : List UInt8)
  | bundle (armor : List UInt8)
  | told (reason : String)
  deriving DecidableEq, Repr

inductive Fault where
  | io (reason : String)
  | encoding (defect : Defect)
  | certificate (reason : String)
  | configuration (reason : String)
  | roles (f : RoleFailure)
  deriving DecidableEq, Repr

namespace Fault

def undecodable : String := "malformed certificate data"

end Fault

namespace Defect

/-- The decoder's own words depend on what it was given; one text stands here for all of them. -/
def reason : Defect → String
  | told reason => reason
  | _ => Fault.undecodable

instance : Coe String Defect := ⟨told⟩

end Defect

namespace Fault

def message : Fault → String
  | io reason => "IO error: " ++ reason
  | encoding defect => "ASN.1 encoding/decoding error: " ++ defect.reason
  | certificate reason => "Invalid certificate: " ++ reason
  | configuration reason => "Configuration error: " ++ reason
  | roles f => f.message

def code? : Fault → Option String
  | roles f => some f.code
  | _ => none

def help? : Fault → Option String
  | roles f => f.help?
  | _ => none

def toQueryFailure (f : Fault) : QueryFailure := ⟨f.message⟩

end Fault

end TrustRoles
