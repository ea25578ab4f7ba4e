namespace TrustRoles.Der

structure Oid where
  content : List UInt8
  deriving DecidableEq, Repr

namespace Oid

/-- The arcs of some bytes, given the number of bytes and the value of the arc that is being read.
An arc holds 32 bits, so its fifth byte is below 16. -/
def arcs? : Nat → Nat → List UInt8 → Option (List Nat)
  | 0, _, [] => some []
  | _ + 1, _, [] => none
  | k, v, b :: bs =>
      if 4 ≤ k ∧ 16 ≤ b then none
      else
        let v' := v * 128 + b.toNat % 128
        if b < 0x80 then (arcs? 0 0 bs).map (v' :: ·) else arcs? (k + 1) v' bs

def minSize : Nat := 3

def maxSize : Nat := 39

def ofContent? : List UInt8 → Option Oid
  | [] => none
  | first :: rest =>
      if first ≤ 119 ∧ minSize ≤ rest.length + 1 ∧ rest.length + 1 ≤ maxSize ∧
          (arcs? 0 0 rest).isSome then
        some ⟨first :: rest⟩
      else none

def arcs : Oid → List Nat
  | ⟨[]⟩ => []
  | ⟨first :: rest⟩ => first.toNat / 40 :: first.toNat % 40 :: (arcs? 0 0 rest).getD []

def text (o : Oid) : String :=
  ".".intercalate (o.arcs.map toString)

end Oid

end TrustRoles.Der
