import TrustRoles.Collection

namespace TrustRoles

abbrev Search := ExceptT RoleFailure Consultation

namespace Search

def ask (c : Criterion) : Search (List Member) := do
  match ← Consultation.ask c with
  | .ok found => pure found
  | .error f => throw (.query f)

def note (n : Notice) : Search Unit :=
  Consultation.note n

def first? (c : Criterion) : Search (Option Member) := do
  match ← ask c with
  | [] =>
      note .noneFound
      pure none
  | m :: rest =>
      note (.found (rest.length + 1) c)
      pure (some m)

def issuer : Search Member := do
  note (.selectingByPathLength 0)
  match ← first? .issuing with
  | some m => pure m
  | none => throw (.notFound .issuer)

def endEntity? (u : Usage) : Search (Option Member) := do
  note (.selectingByUsage u)
  first? (.endEntityFor u)

def endEntityOrIssuer : List Usage → Search Member
  | [] => issuer
  | u :: us => do
      match ← endEntity? u with
      | some m => pure m
      | none => endEntityOrIssuer us

def signer : Search Member :=
  endEntityOrIssuer [.digitalSignature]

def recipient : Search Member :=
  endEntityOrIssuer [.keyEncipherment, .dataEncipherment]

def noteMembers : Nat → List Member → Search Unit
  | _, [] => pure ()
  | k, m :: ms => do
      note (.inventoried (k + 1) m)
      noteMembers (k + 1) ms

def inventory : Search Unit := do
  let members ← ask .any
  note (.inventory members.length)
  noteMembers 0 members

def settle (role : Role) (search : Search Member) : Search Member := do
  note (.seeking role)
  let m ← search
  note (.chosen role m)
  pure m

def assignment : Search Assignment := do
  inventory
  let r ← settle .recipient recipient
  let s ← settle .signer signer
  let i ← settle .issuer issuer
  pure ⟨s, r, i⟩

end Search

end TrustRoles
