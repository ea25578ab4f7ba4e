import TrustRoles.Der.Oid
import TrustRoles.Der.Reader
import TrustRoles.Text.Hex
import TrustRoles.Text.Utf8

namespace TrustRoles

open Der

namespace AttributeNames

def isVisible (name : String) : Bool :=
  name.toList.all fun c => 0x20 < c.toNat && c.toNat < 0x7f

end AttributeNames

/-- The short names of attribute types. Which types have one is not for certificates to say. -/
class AttributeNames where
  name? : Oid → Option String
  isVisible_name? : ∀ o name, name? o = some name → AttributeNames.isVisible name = true

namespace AttributeNames

def common : List (List UInt8 × String) :=
  [([0x55, 0x04, 0x03], "CN"), ([0x55, 0x04, 0x04], "SN"), ([0x55, 0x04, 0x05], "SERIALNUMBER"),
   ([0x55, 0x04, 0x06], "C"), ([0x55, 0x04, 0x07], "L"), ([0x55, 0x04, 0x08], "ST"),
   ([0x55, 0x04, 0x09], "STREET"), ([0x55, 0x04, 0x0a], "O"), ([0x55, 0x04, 0x0b], "OU"),
   ([0x55, 0x04, 0x0c], "TITLE"), ([0x55, 0x04, 0x11], "POSTALCODE"),
   ([0x55, 0x04, 0x2a], "GIVENNAME"), ([0x55, 0x04, 0x2e], "DNQUALIFIER"),
   ([0x55, 0x04, 0x41], "PSEUDONYM"),
   ([0x09, 0x92, 0x26, 0x89, 0x93, 0xf2, 0x2c, 0x64, 0x01, 0x01], "UID"),
   ([0x09, 0x92, 0x26, 0x89, 0x93, 0xf2, 0x2c, 0x64, 0x01, 0x03], "MAIL"),
   ([0x09, 0x92, 0x26, 0x89, 0x93, 0xf2, 0x2c, 0x64, 0x01, 0x19], "DC"),
   ([0x2a, 0x86, 0x48, 0x86, 0xf7, 0x0d, 0x01, 0x09, 0x01], "EMAIL")]

instance : AttributeNames where
  name? o := common.lookup o.content
  isVisible_name? o name found := by
    have words : common.all (fun n => isVisible n.2) = true := by decide
    obtain ⟨before, after, split, -⟩ := List.lookup_eq_some_iff.mp found
    exact List.all_eq_true.mp words (o.content, name) (by simp [split])

end AttributeNames

structure Attribute where
  kind : Oid
  value : Element
  deriving DecidableEq, Repr

namespace Attribute

def read : Reader Attribute := do
  let kind ← Reader.value 0x06 Oid.ofContent?
  let value ← Reader.element
  pure ⟨kind, value⟩

def encodedSize (a : Attribute) : Nat :=
  (Element.encode ⟨0x06, a.kind.content⟩).length + a.value.encode.length

def sortKey (a : Attribute) : List Nat :=
  a.encodedSize :: a.kind.content.length :: a.kind.content.map UInt8.toNat ++
    a.value.tag.toNat :: a.value.content.length :: a.value.content.map UInt8.toNat

def insert? (a : Attribute) : List Attribute → Option (List Attribute)
  | [] => some [a]
  | b :: bs =>
      if a.sortKey < b.sortKey then some (a :: b :: bs)
      else if a.sortKey = b.sortKey then none
      else (insert? a bs).map (b :: ·)

def sort? : List Attribute → Option (List Attribute)
  | [] => some []
  | a :: as => (sort? as).bind a.insert?

def isPrintableByte (b : UInt8) : Bool :=
  (0x61 ≤ b && b ≤ 0x7a) || (0x41 ≤ b && b ≤ 0x5a) || (0x30 ≤ b && b ≤ 0x39) ||
    [0x20, 0x27, 0x28, 0x29, 0x2b, 0x2c, 0x2d, 0x2e, 0x2f, 0x3a, 0x3d, 0x3f].contains b

def isAsciiByte (b : UInt8) : Bool :=
  b < 0x80

def text? (e : Element) : Option String :=
  if e.tag = 0x0c then Text.ofUtf8? e.content
  else if e.tag = 0x13 ∧ e.content.all isPrintableByte = true then Text.ofUtf8? e.content
  else if (e.tag = 0x16 ∨ e.tag = 0x14) ∧ e.content.all isAsciiByte = true then
    Text.ofUtf8? e.content
  else none

def escapedChar (first last : Bool) (c : Char) : List Char :=
  if c = '#' then if first then ['\\', c] else [c]
  else if c = ' ' then if first || last then ['\\', c] else [c]
  else if ['"', '+', ',', ';', '<', '>', '\\'].contains c then ['\\', c]
  else if c.toNat < 32 ∨ c.toNat = 127 then
    ['\\', Text.hexDigit (c.toNat / 16), Text.hexDigit (c.toNat % 16)]
  else [c]

def escapedFrom : Bool → List Char → List Char
  | _, [] => []
  | first, c :: cs => escapedChar first cs.isEmpty c ++ escapedFrom false cs

def escaped (s : String) : String :=
  String.ofList (escapedFrom true s.toList)

def text [AttributeNames] (a : Attribute) : String :=
  match AttributeNames.name? a.kind, text? a.value with
  | some name, some value => name ++ "=" ++ escaped value
  | _, _ => a.kind.text ++ "=#" ++ String.ofList (Text.hexBytes a.value.encode)

end Attribute

structure DistinguishedName where
  parts : List (List Attribute)
  deriving DecidableEq, Repr

namespace DistinguishedName

def attribute? (e : Element) : Option Attribute :=
  if e.tag = 0x30 then Attribute.read.all e.content else none

def part? (e : Element) : Option (List Attribute) :=
  if e.tag = 0x31 then do
    let as ← (← elements? e.content).mapM attribute?
    Attribute.sort? as
  else none

def ofContent? (bs : List UInt8) : Option DistinguishedName := do
  some ⟨← (← elements? bs).mapM part?⟩

def read : Reader DistinguishedName :=
  Reader.value 0x30 ofContent?

def text [AttributeNames] (n : DistinguishedName) : String :=
  ",".intercalate (n.parts.reverse.map fun as => "+".intercalate (as.map Attribute.text))

end DistinguishedName

end TrustRoles
