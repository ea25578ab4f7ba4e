import TrustRoles.Failure
import TrustRoles.Interaction
import TrustRoles.Notice

namespace TrustRoles

abbrev Answer := Except QueryFailure (List Member)

namespace Inquiry

inductive Call where
  | ask (c : Criterion)
  | note (n : Notice)

def Reply : Call → Type
  | .ask _ => Answer
  | .note _ => Unit

def interface : Interface := ⟨Call, Reply⟩

end Inquiry

abbrev Consultation := Interaction Inquiry.interface

namespace Consultation

def ask (c : Criterion) : Consultation Answer :=
  .call (.ask c) fun r => .done r

def note (n : Notice) : Consultation Unit :=
  .call (.note n) fun r => .done r

end Consultation

inductive Event where
  | asked (c : Criterion) (a : Answer)
  | noted (n : Notice)

namespace Event

def criterion? : Event → Option Criterion
  | asked c _ => some c
  | noted _ => none

def notice? : Event → Option Notice
  | asked _ _ => none
  | noted n => some n

end Event

abbrev Transcript := List Event

namespace Transcript

def criteria (t : Transcript) : List Criterion :=
  t.filterMap Event.criterion?

def notices (t : Transcript) : List Notice :=
  t.filterMap Event.notice?

end Transcript

abbrev Oracle := List Criterion → Criterion → Answer

namespace Oracle

def consult {α : Type} (o : Oracle) : Consultation α → Transcript → α × Transcript
  | .done a, t => (a, t)
  | .call (.ask c) next, t =>
      let a := o t.criteria c
      o.consult (next a) (t ++ [.asked c a])
  | .call (.note n) next, t => o.consult (next ()) (t ++ [.noted n])

def failingFrom (o : Oracle) (n : Nat) (f : QueryFailure) : Oracle := fun earlier c =>
  if n ≤ earlier.length then .error f else o earlier c

end Oracle

end TrustRoles
