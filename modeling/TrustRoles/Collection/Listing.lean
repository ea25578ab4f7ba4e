import TrustRoles.Collection

namespace TrustRoles

structure Listing where
  members : List Member
  deriving DecidableEq, Repr

namespace Listing

def ofProfiles (collection : Nat) (profiles : List Profile) : Listing :=
  ⟨Member.number collection profiles⟩

def size (l : Listing) : Nat :=
  l.members.length

def isEmpty (l : Listing) : Bool :=
  l.members.isEmpty

def select (l : Listing) (c : Criterion) : List Member :=
  l.members.filter fun m => c.accepts m.profile

def oracle (l : Listing) : Oracle := fun _ c =>
  .ok (l.select c)

end Listing

end TrustRoles
