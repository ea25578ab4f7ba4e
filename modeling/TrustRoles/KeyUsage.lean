namespace TrustRoles

inductive Usage where
  | digitalSignature
  | nonRepudiation
  | keyEncipherment
  | dataEncipherment
  | keyAgreement
  | keyCertSign
  | crlSign
  | encipherOnly
  | decipherOnly
  deriving DecidableEq, Repr

namespace Usage

def all : List Usage :=
  [digitalSignature, nonRepudiation, keyEncipherment, dataEncipherment, keyAgreement,
   keyCertSign, crlSign, encipherOnly, decipherOnly]

def index : Usage → Nat
  | digitalSignature => 0
  | nonRepudiation => 1
  | keyEncipherment => 2
  | dataEncipherment => 3
  | keyAgreement => 4
  | keyCertSign => 5
  | crlSign => 6
  | encipherOnly => 7
  | decipherOnly => 8

def name : Usage → String
  | digitalSignature => "digitalSignature"
  | nonRepudiation => "nonRepudiation"
  | keyEncipherment => "keyEncipherment"
  | dataEncipherment => "dataEncipherment"
  | keyAgreement => "keyAgreement"
  | keyCertSign => "keyCertSign"
  | crlSign => "cRLSign"
  | encipherOnly => "encipherOnly"
  | decipherOnly => "decipherOnly"

def ofName? (s : String) : Option Usage :=
  all.find? fun u => u.name == s

def bit (u : Usage) : BitVec 9 :=
  BitVec.twoPow 9 u.index

theorem mem_all (u : Usage) : u ∈ all := by
  cases u <;> decide

theorem index_lt (u : Usage) : u.index < 9 := by
  cases u <;> decide

theorem index_injective {u v : Usage} (h : u.index = v.index) : u = v := by
  cases u <;> cases v <;> first | rfl | simp [index] at h

theorem ofName?_name (u : Usage) : ofName? u.name = some u := by
  cases u <;> decide

theorem getLsbD_bit (u v : Usage) : u.bit.getLsbD v.index = decide (u = v) := by
  cases u <;> cases v <;> decide

end Usage

structure KeyUsage where
  bits : BitVec 9
  deriving DecidableEq, Repr

namespace KeyUsage

def ofMask (mask : Nat) : KeyUsage :=
  ⟨BitVec.ofNat 9 mask⟩

def mask (k : KeyUsage) : Nat :=
  k.bits.toNat

def only (u : Usage) : KeyUsage :=
  ⟨u.bit⟩

def ofList (us : List Usage) : KeyUsage :=
  ⟨us.foldl (fun acc u => acc ||| u.bit) 0⟩

def permits (k : KeyUsage) (u : Usage) : Bool :=
  k.bits.getLsbD u.index

def covers (k required : KeyUsage) : Bool :=
  k.bits &&& required.bits == required.bits

def toList (k : KeyUsage) : List Usage :=
  Usage.all.filter k.permits

def toVector (k : KeyUsage) : List Bool :=
  Usage.all.map k.permits

def isEmpty (k : KeyUsage) : Bool :=
  k.bits == 0

def dump (k : KeyUsage) : String :=
  "\x7b" ++ ", ".intercalate (k.toList.map fun u => "\"" ++ u.name ++ "\"") ++ "\x7d"

theorem mem_toList {k : KeyUsage} {u : Usage} : u ∈ k.toList ↔ k.permits u = true := by
  simp [toList, Usage.mem_all]

theorem permits_only (u v : Usage) : (only u).permits v = decide (u = v) :=
  Usage.getLsbD_bit u v

end KeyUsage

end TrustRoles
