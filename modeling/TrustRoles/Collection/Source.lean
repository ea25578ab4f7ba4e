import TrustRoles.Collection.Files
import TrustRoles.Collection.Listing

namespace TrustRoles

structure Scripted where
  oracle : Oracle
  failsFrom : Option Nat
  failure : QueryFailure
  asked : List Criterion

namespace Scripted

def present (s : Scripted) : Oracle :=
  match s.failsFrom with
  | none => s.oracle
  | some n => s.oracle.failingFrom n s.failure

def answer (c : Criterion) (s : Scripted) : Answer × Scripted :=
  (s.present s.asked c, { s with asked := s.asked ++ [c] })

end Scripted

inductive Source where
  | listing (l : Listing)
  | scripted (s : Scripted)
  | files (s : FileSource)

namespace Source

def answer (c : Criterion) : Source → DiskProgram (Answer × Source)
  | listing l => pure (l.oracle [] c, listing l)
  | scripted s => pure ((s.answer c).1, scripted (s.answer c).2)
  | files s => do
      let r ← s.answer c
      pure (r.1, files r.2)

def carryOut {α : Type} : Consultation α → Source → DiskProgram (α × Source)
  | .done a, s => pure (a, s)
  | .call (.ask c) next, s => do
      let r ← s.answer c
      carryOut (next r.1) r.2
  | .call (.note n) next, s => do
      DiskProgram.note n
      carryOut (next ()) s

def consult {α : Type} (s : Source) (i : Consultation α) : DiskProgram (α × Source) :=
  carryOut i s

end Source

end TrustRoles
