import TrustRoles.Base64
import TrustRoles.Text.Ascii

namespace TrustRoles.Pem

open Text

def opening : List UInt8 := ascii "-----BEGIN "

def label : List UInt8 := ascii "CERTIFICATE-----"

def closing : List UInt8 := ascii "-----END CERTIFICATE-----"

def lineWidth : Nat := 64

def isBlank (b : UInt8) : Bool :=
  b == 0x20 || b == 0x09 || b == 0x0a || b == 0x0c || b == 0x0d

def trim (bs : List UInt8) : List UInt8 :=
  ((bs.dropWhile isBlank).reverse.dropWhile isBlank).reverse

def armor? (bs : List UInt8) : Option (List UInt8) :=
  if (after? (ascii "-----BEGIN") (trim bs)).isSome then some (trim bs) else none

def splitWithin : Nat → List UInt8 → Option (List (List UInt8))
  | 0, bs => if bs.length ≤ 1 then some [] else none
  | fuel + 1, bs =>
      if bs.length ≤ 1 then some []
      else match cutAfter? closing bs with
        | none => none
        | some (block, rest) => (splitWithin fuel rest).map (block :: ·)

/-- The blocks of a bundle, each up to its closing mark. A single byte after the last block goes
unnoticed. -/
def split? (bs : List UInt8) : Option (List (List UInt8)) :=
  splitWithin bs.length bs

def skipText? : List UInt8 → Option (List UInt8)
  | [] => none
  | b :: bs =>
      if b = 0x00 then none
      else if b = 0x0a ∧ (after? opening bs).isSome then after? opening bs
      else skipText? bs

def afterOpening? (bs : List UInt8) : Option (List UInt8) :=
  match after? opening bs with
  | some rest => some rest
  | none => skipText? bs

def afterLineEnd? : List UInt8 → Option (List UInt8)
  | 0x0d :: 0x0a :: bs => some bs
  | 0x0d :: bs => some bs
  | 0x0a :: bs => some bs
  | _ => none

def beforeLineEnd? (bs : List UInt8) : Option (List UInt8) :=
  match bs.reverse with
  | 0x0a :: 0x0d :: rev => some rev.reverse
  | 0x0a :: rev => some rev.reverse
  | 0x0d :: rev => some rev.reverse
  | _ => none

def text? (block : List UInt8) : Option (List UInt8) := do
  let labelled ← afterOpening? block
  let rest ← after? label labelled
  let inner ← afterLineEnd? rest
  let reversed ← after? closing.reverse inner.reverse
  beforeLineEnd? reversed.reverse

def unwrapWithin : Nat → List UInt8 → Option (List UInt8)
  | 0, _ => none
  | fuel + 1, bs =>
      if lineWidth < bs.length then do
        let rest ← afterLineEnd? (bs.drop lineWidth)
        let joined ← unwrapWithin fuel rest
        some (bs.take lineWidth ++ joined)
      else some ((beforeLineEnd? bs).getD bs)

def unwrap? (bs : List UInt8) : Option (List UInt8) :=
  unwrapWithin (bs.length + 1) bs

def decode? (block : List UInt8) : Option (List UInt8) := do
  let text ← text? block
  if text.isEmpty then none
  else Base64.decode? (← unwrap? text)

def wrapWithin : Nat → List UInt8 → List UInt8
  | 0, _ => []
  | fuel + 1, bs =>
      if bs.isEmpty then []
      else bs.take lineWidth ++ 0x0a :: wrapWithin fuel (bs.drop lineWidth)

def wrap (bs : List UInt8) : List UInt8 :=
  wrapWithin bs.length bs

def encode (bs : List UInt8) : List UInt8 :=
  opening ++ label ++ 0x0a :: wrap (Base64.encode bs) ++ closing ++ [0x0a]

end TrustRoles.Pem
