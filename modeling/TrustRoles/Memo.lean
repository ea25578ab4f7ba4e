import TrustRoles.Resolution

namespace TrustRoles

structure Filed where
  number : Nat
  assignment : Assignment
  deriving DecidableEq, Repr

structure Slot where
  place : Nat
  filed : Option Filed
  deriving DecidableEq, Repr

structure Memo where
  slots : List Slot
  issued : Nat
  deriving DecidableEq, Repr

namespace Memo

def empty : Memo := ⟨[], 0⟩

def size (m : Memo) : Nat :=
  m.slots.length

def isEmpty (m : Memo) : Bool :=
  m.slots.isEmpty

def places (m : Memo) : List Nat :=
  m.slots.map Slot.place

def hasSlot (m : Memo) (place : Nat) : Bool :=
  m.slots.any fun s => s.place == place

def filed? (m : Memo) (place : Nat) : Option Filed :=
  (m.slots.find? fun s => s.place == place).bind Slot.filed

def swept (alive : Nat → Bool) (m : Memo) : Memo :=
  { m with slots := m.slots.filter fun s => alive s.place }

def reserve (m : Memo) (place : Nat) : Memo :=
  if m.hasSlot place then m else { m with slots := m.slots ++ [⟨place, none⟩] }

def file (m : Memo) (place : Nat) (a : Assignment) : Memo :=
  let fill (s : Slot) : Slot :=
    if s.place = place then ⟨place, some ⟨m.issued, a⟩⟩ else s
  ⟨m.slots.map fill, m.issued + 1⟩

def sweep (alive : Nat → Bool) (m : Memo) : Nat × Memo :=
  (m.size - (m.swept alive).size, m.swept alive)

def forget (alive : Nat → Bool) (place : Nat) (m : Memo) : Bool × Memo :=
  if m.hasSlot place && alive place then
    (true, { m with slots := m.slots.filter fun s => s.place != place })
  else (false, m)

def peek (alive : Nat → Bool) (place : Nat) (m : Memo) : Option Filed :=
  if alive place then m.filed? place else none

def noteSwept (count : Nat) : Consultation Unit :=
  if 0 < count then Consultation.note (.swept count) else pure ()

def ready (alive : Nat → Bool) (place : Nat) (m : Memo) : Memo :=
  (m.swept alive).reserve place

def search (place : Nat) (m : Memo) : Consultation (Except RoleFailure Filed × Memo) := do
  Consultation.note (.resolving place)
  match ← Search.assignment.run with
  | .error e => pure (.error e, m)
  | .ok a => pure (.ok ⟨m.issued, a⟩, m.file place a)

def recallOrSearch (place : Nat) (m : Memo) : Consultation (Except RoleFailure Filed × Memo) :=
  match m.filed? place with
  | none => m.search place
  | some f => do
      Consultation.note (.recalled place)
      pure (.ok f, m)

def fetch (alive : Nat → Bool) (place : Nat) (m : Memo) :
    Consultation (Except RoleFailure Filed × Memo) := do
  noteSwept (m.sweep alive).1
  (m.ready alive place).recallOrSearch place

end Memo

end TrustRoles
