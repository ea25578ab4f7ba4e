import TrustRoles.Calendar

namespace TrustRoles.Der

def digit? (b : UInt8) : Option Nat :=
  if 48 ≤ b ∧ b ≤ 57 then some (b.toNat - 48) else none

def twoDigits? (a b : UInt8) : Option Nat := do
  some (10 * (← digit? a) + (← digit? b))

structure Time where
  year : Nat
  month : Nat
  day : Nat
  hour : Nat
  minute : Nat
  second : Nat
  deriving DecidableEq, Repr

namespace Time

def firstYear : Nat := 1970

def isValid (t : Time) : Bool :=
  firstYear ≤ t.year && 1 ≤ t.month && t.month ≤ 12 && 1 ≤ t.day &&
    t.day ≤ Calendar.daysInMonth t.year t.month && t.hour < 24 && t.minute < 60 && t.second < 60

def ofDigits? (year : Nat) : List UInt8 → Option Time
  | [m, m', d, d', h, h', i, i', s, s', 0x5a] => do
      let t : Time := ⟨year, ← twoDigits? m m', ← twoDigits? d d', ← twoDigits? h h',
        ← twoDigits? i i', ← twoDigits? s s'⟩
      if t.isValid then some t else none
  | _ => none

/-- A year of two digits from 50 on lies in the twentieth century. -/
def ofShort? : List UInt8 → Option Time
  | y :: y' :: rest => do
      let n ← twoDigits? y y'
      ofDigits? (if 50 ≤ n then 1900 + n else 2000 + n) rest
  | _ => none

def ofLong? : List UInt8 → Option Time
  | c :: c' :: y :: y' :: rest => do
      ofDigits? (100 * (← twoDigits? c c') + (← twoDigits? y y')) rest
  | _ => none

end Time

end TrustRoles.Der
