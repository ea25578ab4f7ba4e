namespace TrustRoles.Der

structure Element where
  tag : UInt8
  content : List UInt8
  deriving DecidableEq, Repr

def universalTags : List UInt8 :=
  [0x01, 0x02, 0x03, 0x04, 0x05, 0x06, 0x09, 0x0a, 0x0c, 0x12, 0x13, 0x14, 0x15, 0x16, 0x17, 0x18,
   0x1a, 0x1e, 0x30, 0x31]

def isKnownTag (t : UInt8) : Bool :=
  universalTags.contains t || (0x40 ≤ t && t % 32 != 31)

def isContextTag (t : UInt8) : Bool :=
  0x80 ≤ t && t < 0xc0

def tagNumber (t : UInt8) : UInt8 :=
  t % 32

def maxLength : Nat := 0x0fffffff

def bigEndian (bs : List UInt8) : Nat :=
  bs.foldl (fun n b => n * 256 + b.toNat) 0

def longLength? (width : Nat) (bs : List UInt8) : Option (Nat × List UInt8) :=
  let n := bigEndian (bs.take width)
  if width ≤ bs.length ∧ 128 ≤ n ∧ Nat.pow 256 (width - 1) ≤ n ∧ n ≤ maxLength then
    some (n, bs.drop width)
  else none

def length? : List UInt8 → Option (Nat × List UInt8)
  | [] => none
  | b :: bs =>
      if b < 0x80 then some (b.toNat, bs)
      else if 0x80 < b ∧ b ≤ 0x84 then longLength? (b.toNat - 128) bs
      else none

def element? : List UInt8 → Option (Element × List UInt8)
  | [] => none
  | t :: bs =>
      if isKnownTag t then
        match length? bs with
        | none => none
        | some (n, rest) =>
            if n ≤ rest.length then some (⟨t, rest.take n⟩, rest.drop n) else none
      else none

def elementsWithin : Nat → List UInt8 → Option (List Element)
  | _, [] => some []
  | 0, _ :: _ => none
  | fuel + 1, b :: bs =>
      match element? (b :: bs) with
      | none => none
      | some (e, rest) => (elementsWithin fuel rest).map (e :: ·)

def elements? (bs : List UInt8) : Option (List Element) :=
  elementsWithin bs.length bs

def encodeLength (n : Nat) : List UInt8 :=
  if n < 0x80 then [UInt8.ofNat n]
  else if n < 0x100 then [0x81, UInt8.ofNat n]
  else if n < 0x10000 then [0x82, UInt8.ofNat (n / 0x100), UInt8.ofNat n]
  else if n < 0x1000000 then
    [0x83, UInt8.ofNat (n / 0x10000), UInt8.ofNat (n / 0x100), UInt8.ofNat n]
  else
    [0x84, UInt8.ofNat (n / 0x1000000), UInt8.ofNat (n / 0x10000), UInt8.ofNat (n / 0x100),
     UInt8.ofNat n]

def Element.encode (e : Element) : List UInt8 :=
  e.tag :: encodeLength e.content.length ++ e.content

end TrustRoles.Der
