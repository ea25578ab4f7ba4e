import TrustRoles.Der.Element

namespace TrustRoles.Der

abbrev Reader := StateT (List UInt8) Option

namespace Reader

variable {α : Type}

def all (r : Reader α) (bs : List UInt8) : Option α :=
  match r bs with
  | some (a, []) => some a
  | _ => none

def of? (a : Option α) : Reader α :=
  liftM a

def element : Reader Element :=
  element?

def peek : Reader (Option UInt8) := fun bs =>
  some (bs.head?, bs)

def content (tag : UInt8) : Reader (List UInt8) := do
  let e ← element
  if e.tag = tag then pure e.content else failure

def value (tag : UInt8) (f : List UInt8 → Option α) : Reader α := do
  of? (f (← content tag))

def within (tag : UInt8) (r : Reader α) : Reader α :=
  value tag r.all

def optional (tag : UInt8) (r : Reader α) : Reader (Option α) := do
  if (← peek) = some tag then some <$> r else pure none

def anyOrEnd : Reader Unit := do
  match ← peek with
  | none => pure ()
  | some _ => discard element

end Reader

end TrustRoles.Der
