import TrustRoles.Der.Primitive
import TrustRoles.Der.Time
import TrustRoles.DistinguishedName

namespace TrustRoles

open Der

structure Extension where
  kind : Oid
  critical : Bool
  payload : List UInt8
  deriving DecidableEq, Repr

namespace Extension

def read : Reader Extension := do
  let kind ← Reader.value 0x06 Oid.ofContent?
  let critical ← Reader.optional 0x01 (Reader.value 0x01 boolean?)
  let payload ← Reader.content 0x04
  pure ⟨kind, critical.getD false, payload⟩

def ofElement? (e : Element) : Option Extension :=
  if e.tag = 0x30 then read.all e.content else none

def listOfContent? (bs : List UInt8) : Option (List Extension) := do
  (← elements? bs).mapM ofElement?

end Extension

structure Certificate where
  serialNumber : List UInt8
  issuer : DistinguishedName
  subject : DistinguishedName
  extensions : Option (List Extension)
  deriving DecidableEq, Repr

namespace Certificate

def maxSerialSize : Nat := 21

def serialNumber? (bs : List UInt8) : Option (List UInt8) :=
  if isInteger bs = true ∧ bs.length ≤ maxSerialSize then some bs else none

def version? : List UInt8 → Option UInt8
  | [n] => if n ≤ 2 then some n else none
  | _ => none

def algorithm : Reader Unit :=
  Reader.within 0x30 do
    let _ ← Reader.value 0x06 Oid.ofContent?
    Reader.anyOrEnd

def bitString (tag : UInt8) : Reader BitString :=
  Reader.value tag BitString.ofContent?

def time : Reader Time := do
  if (← Reader.peek) = some 0x17 then Reader.value 0x17 Time.ofShort?
  else Reader.value 0x18 Time.ofLong?

def validity : Reader Unit :=
  Reader.within 0x30 do
    let _ ← time
    discard time

def publicKey : Reader Unit :=
  Reader.within 0x30 do
    algorithm
    discard (bitString 0x03)

def skipFieldsWithin : Nat → UInt8 → Reader Unit
  | 0, _ => failure
  | fuel + 1, number => do
      match ← Reader.peek with
      | some t =>
          if isContextTag t = true ∧ tagNumber t < number then do
            discard Reader.element
            skipFieldsWithin fuel number
          else pure ()
      | none => pure ()

def skipFields (number : UInt8) : Reader Unit := fun bs =>
  skipFieldsWithin (bs.length + 1) number bs

def refuseFields (number : UInt8) : Reader Unit := do
  match ← Reader.peek with
  | some t => if isContextTag t = true ∧ tagNumber t < number then failure else pure ()
  | none => pure ()

def contextField {α : Type} (skipping : Bool) (number tag : UInt8) (r : Reader α) :
    Reader (Option α) := do
  if skipping then skipFields number else refuseFields number
  match ← Reader.peek with
  | some t =>
      if isContextTag t = true ∧ tagNumber t = number then
        if t = tag then some <$> r else failure
      else pure none
  | none => pure none

def body (skipping : Bool) : Reader Certificate := do
  let _ ← contextField skipping 0 0xa0 (Reader.within 0xa0 (Reader.value 0x02 version?))
  let serial ← Reader.value 0x02 serialNumber?
  algorithm
  let issuer ← DistinguishedName.read
  validity
  let subject ← DistinguishedName.read
  publicKey
  let _ ← contextField skipping 1 0x81 (bitString 0x81)
  let _ ← contextField skipping 2 0x82 (bitString 0x82)
  let extensions ← contextField skipping 3 0xa3
    (Reader.within 0xa3 (Reader.value 0x30 Extension.listOfContent?))
  pure ⟨serial, issuer, subject, extensions⟩

def read (skipping : Bool) : Reader Certificate :=
  Reader.within 0x30 do
    let c ← Reader.within 0x30 (body skipping)
    algorithm
    discard (bitString 0x03)
    pure c

def ofDer? (bs : List UInt8) : Option Certificate :=
  (read true).all bs

def atFront? (bs : List UInt8) : Option Certificate :=
  ((read false) bs).map Prod.fst

end Certificate

end TrustRoles
