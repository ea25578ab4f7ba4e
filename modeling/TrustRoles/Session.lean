import TrustRoles.Inspection
import TrustRoles.Registry

namespace TrustRoles

structure Session where
  world : World
  registry : Registry Source
  memo : Memo

namespace Session

variable {α : Type}

def start (files : FileSystem) : Session :=
  ⟨⟨files, []⟩, .empty, .empty⟩

def run (p : DiskProgram α) (s : Session) : α × Session :=
  let r := World.run p s.world
  (r.1, { s with world := r.2 })

def note (n : Notice) (s : Session) : Session :=
  (s.run (DiskProgram.note n)).2

def consult (place : Nat) (i : Consultation α) (s : Session) : Option (α × Session) :=
  (s.registry.state? place).map fun source =>
    let r := s.run (source.consult i)
    (r.1.1, { r.2 with registry := r.2.registry.update place fun _ => r.1.2 })

/-- A place for a new collection. The place of a collection that is gone stays taken while the memo
has a slot that refers to it. -/
def vacant (wish : Nat) (s : Session) : Nat :=
  s.registry.vacant s.memo.places wish

def holdNear (wish : Nat) (name : String) (make : Nat → Source) (s : Session) : Session :=
  { s with registry := s.registry.hold name (s.vacant wish) make }

def hold (name : String) (make : Nat → Source) (s : Session) : Session :=
  s.holdNear 0 name make

def share (name other : String) (s : Session) : Session :=
  { s with registry := s.registry.share name other }

def drop (name : String) (s : Session) : Session :=
  { s with registry := s.registry.drop name }

def update (place : Nat) (f : Source → Source) (s : Session) : Session :=
  { s with registry := s.registry.update place f }

def query (place : Nat) (c : Criterion) (s : Session) : Option (Answer × Session) :=
  s.consult place (Consultation.ask c)

def fetch (place : Nat) (s : Session) : Option (Except RoleFailure Filed × Session) :=
  (s.consult place (s.memo.fetch s.registry.alive place)).map fun r =>
    (r.1.1, { r.2 with memo := r.1.2 })

def peek (place : Nat) (s : Session) : Option Filed :=
  s.memo.peek s.registry.alive place

def forget (place : Nat) (s : Session) : Bool × Session :=
  let r := s.memo.forget s.registry.alive place
  let after := { s with memo := r.2 }
  (r.1, if r.1 then after.note (.forgotten place) else after)

def sweep (s : Session) : Nat × Session :=
  let r := s.memo.sweep s.registry.alive
  let after := { s with memo := r.2 }
  (r.1, if 0 < r.1 then after.note (.swept r.1) else after)

def inspect (place : Nat) (s : Session) : Option (Except Fault Report × Session) :=
  (s.consult place (Inspection.inspect s.registry.alive place s.memo)).map fun r =>
    (r.1.1, { r.2 with memo := r.1.2 })

def inspectPathsNear (wish : Nat) (paths : List Path) (s : Session) :
    Except Fault Report × Session :=
  let r := s.run
    (Inspection.inspectPaths s.registry.alive (s.vacant wish) s.registry.next paths s.memo)
  (r.1.1, { r.2 with registry := r.2.registry.skip, memo := r.1.2 })

def inspectPaths (paths : List Path) (s : Session) : Except Fault Report × Session :=
  s.inspectPathsNear 0 paths

end Session

end TrustRoles
