namespace TrustRoles.Der

def boolean? : List UInt8 → Option Bool
  | [0x00] => some false
  | [0xff] => some true
  | _ => none

def isInteger : List UInt8 → Bool
  | [] => false
  | [_] => true
  | first :: second :: _ =>
      !(first == 0x00 && second < 0x80) && !(first == 0xff && 0x80 ≤ second)

def octet? : List UInt8 → Option UInt8
  | [b] => if b < 0x80 then some b else none
  | [0x00, b] => if 0x80 ≤ b then some b else none
  | _ => none

structure BitString where
  unused : Nat
  bytes : List UInt8
  deriving DecidableEq, Repr

namespace BitString

def ofContent? : List UInt8 → Option BitString
  | [] => none
  | [u] => if u = 0 then some ⟨0, []⟩ else none
  | u :: bytes => if u ≤ 7 then some ⟨u.toNat, bytes⟩ else none

def size (b : BitString) : Nat :=
  8 * b.bytes.length - b.unused

def byteBits (b : UInt8) : List Bool :=
  [7, 6, 5, 4, 3, 2, 1, 0].map fun i => b.toNat.testBit i

def bits (b : BitString) : List Bool :=
  (b.bytes.flatMap byteBits).take b.size

end BitString

end TrustRoles.Der
