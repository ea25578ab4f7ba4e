import TrustRoles.Certificate
import TrustRoles.Failure

namespace TrustRoles

open Der

def BasicConstraints.oid : Oid := ⟨[0x55, 0x1d, 0x13]⟩

def BasicConstraints.read : Reader BasicConstraints :=
  Reader.within 0x30 do
    let ca ← Reader.optional 0x01 (Reader.value 0x01 boolean?)
    let pathLength ← Reader.optional 0x02 (Reader.value 0x02 octet?)
    pure ⟨ca.getD false, pathLength⟩

def BasicConstraints.ofDer? (bs : List UInt8) : Option BasicConstraints :=
  read.all bs

namespace KeyUsage

def oid : Oid := ⟨[0x55, 0x1d, 0x0f]⟩

def maxBits : Nat := 16

def maskOfBits : List Bool → Nat
  | [] => 0
  | b :: bs => b.toNat + 2 * maskOfBits bs

def ofBitString? (b : BitString) : Option KeyUsage :=
  if b.size ≤ maxBits then some (ofMask (maskOfBits b.bits)) else none

def read : Reader KeyUsage :=
  Reader.value 0x03 fun bs => (BitString.ofContent? bs).bind ofBitString?

def ofDer? (bs : List UInt8) : Option KeyUsage :=
  read.all bs

end KeyUsage

namespace Profile

structure Rights where
  standing : Standing
  keyUsage : Option KeyUsage
  deriving DecidableEq, Repr

namespace Rights

def initial : Rights := ⟨.endEntity, none⟩

def revise (r : Rights) (e : Extension) : Except Defect Rights :=
  if e.kind = BasicConstraints.oid then
    match BasicConstraints.ofDer? e.payload with
    | some c => .ok { r with standing := .ofConstraints c }
    | none => .error (.constraints e.payload)
  else if e.kind = KeyUsage.oid then
    match KeyUsage.ofDer? e.payload with
    | some k => .ok { r with keyUsage := some k }
    | none => .error (.keyUsage e.payload)
  else .ok r

def ofExtensions (es : List Extension) : Except Defect Rights :=
  es.foldlM revise initial

end Rights

def ofCertificate [AttributeNames] (c : Certificate) : Except Fault Profile :=
  match Rights.ofExtensions (c.extensions.getD []) with
  | .error d => .error (.encoding d)
  | .ok r => .ok
      { issuer := c.issuer.text
        subject := c.subject.text
        serialNumber := String.ofList (Text.hexBytes c.serialNumber)
        standing := r.standing
        keyUsage := r.keyUsage
        extensionCount := c.extensions.map List.length }

def ofDer [AttributeNames] (bs : List UInt8) : Except Fault Profile :=
  match Certificate.ofDer? bs with
  | none =>
      .error (.certificate ("Failed to parse certificate: " ++ (Defect.certificate bs).reason))
  | some c => ofCertificate c

end Profile

end TrustRoles
