import TrustRoles.Certificate.Profile
import TrustRoles.Pem

namespace TrustRoles.Bundle

def ofBlock? (block : List UInt8) : Option Certificate := do
  Certificate.atFront? (← Pem.decode? block)

def certificates? (bs : List UInt8) : Option (List Certificate) :=
  match Pem.armor? bs with
  | some text => do (← Pem.split? text).mapM ofBlock?
  | none => (Certificate.ofDer? bs).map fun c => [c]

def defect (bs : List UInt8) : Defect :=
  match Pem.armor? bs with
  | some text => .bundle text
  | none => .certificate bs

def profiles [AttributeNames] (bs : List UInt8) : Except Fault (List Profile) :=
  match certificates? bs with
  | none => .error (.encoding (defect bs))
  | some [] => .error (.certificate "No certificates found in PEM input")
  | some cs => cs.mapM Profile.ofCertificate

end TrustRoles.Bundle
