import TrustRoles.Session

namespace TrustRoles

def Source.failFrom (n : Option Nat) : Source → Source
  | scripted s => scripted { s with failsFrom := n }
  | s => s

namespace Session

inductive Step where
  | create (wish : Nat) (name : String) (members : List Member) (failsFrom : Option Nat)
      (failure : QueryFailure)
  | list (wish : Nat) (name : String) (members : List Member)
  | share (name other : String)
  | drop (name : String)
  | failFrom (name : String) (n : Option Nat)
  | fetch (name : String)
  | peek (name : String)
  | forget (name : String)
  | sweep
  deriving DecidableEq, Repr

inductive Reply where
  | silent
  | assigned (filed : Filed)
  | failed (f : RoleFailure)
  | peeked (filed : Option Filed)
  | forgotten (found : Bool)
  | swept (count : Nat)
  deriving DecidableEq, Repr

def Reply.ofFetch : Except RoleFailure Filed → Reply
  | .ok filed => assigned filed
  | .error f => failed f

def access (s : Session) (name : String) (f : Nat → Option (Reply × Session)) : Reply × Session :=
  ((s.registry.holder? name).bind f).getD (.silent, s)

def step (s : Session) : Step → Reply × Session
  | .create wish name members failsFrom failure =>
      (.silent, s.holdNear wish name fun _ =>
        .scripted ⟨(Listing.mk members).oracle, failsFrom, failure, []⟩)
  | .list wish name members => (.silent, s.holdNear wish name fun _ => .listing ⟨members⟩)
  | .share name other => (.silent, s.share name other)
  | .drop name => (.silent, s.drop name)
  | .failFrom name n => s.access name fun p => some (.silent, s.update p (Source.failFrom n))
  | .fetch name => s.access name fun p => (s.fetch p).map fun r => (.ofFetch r.1, r.2)
  | .peek name => s.access name fun p => some (.peeked (s.peek p), s)
  | .forget name => s.access name fun p => some (.forgotten (s.forget p).1, (s.forget p).2)
  | .sweep => (.swept s.sweep.1, s.sweep.2)

end Session

end TrustRoles
