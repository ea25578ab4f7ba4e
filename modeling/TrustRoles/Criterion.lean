import TrustRoles.Profile

namespace TrustRoles

inductive StandingTest where
  | authorityWith (least : UInt32)
  | endEntity
  deriving DecidableEq, Repr

namespace StandingTest

def accepts : StandingTest → Standing → Bool
  | authorityWith least, s => s.allowance.any fun n => least ≤ n
  | endEntity, s => !s.isAuthority

def text : StandingTest → String
  | authorityWith least => "basicConstraints pathLen >= " ++ toString least.toNat
  | endEntity => "end entity"

end StandingTest

structure Criterion where
  standing : Option StandingTest
  keyUsage : Option KeyUsage
  deriving DecidableEq, Repr

namespace Criterion

def any : Criterion := ⟨none, none⟩

def authorityWith (least : UInt32) : Criterion := ⟨some (.authorityWith least), none⟩

def issuing : Criterion := authorityWith 0

def endEntityFor (u : Usage) : Criterion := ⟨some .endEntity, some (.only u)⟩

def isAny (c : Criterion) : Bool :=
  c.standing.isNone && c.keyUsage.isNone

/-- A certificate without a key-usage extension meets every key-usage requirement. -/
def accepts (c : Criterion) (p : Profile) : Bool :=
  c.standing.all (fun t => t.accepts p.standing) &&
    match c.keyUsage, p.keyUsage with
    | some required, some present => present.covers required
    | _, _ => true

def parts (c : Criterion) : List String :=
  (c.standing.map StandingTest.text).toList ++
    ((c.keyUsage.map KeyUsage.toList).getD []).map fun u => "keyUsage:" ++ u.name

def text (c : Criterion) : String :=
  if c.isAny then "any certificate" else ", ".intercalate c.parts

end Criterion

end TrustRoles
