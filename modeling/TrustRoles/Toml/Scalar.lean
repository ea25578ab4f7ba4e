import TrustRoles.Calendar
import TrustRoles.Text.Hex
import TrustRoles.Toml.Value

namespace TrustRoles.Toml

def isDecimal (c : Char) : Bool :=
  '0' ≤ c && c ≤ '9'

def digitsFrom? (isDigit : Char → Bool) : Bool → List Char → Option (List Char)
  | true, [] => some []
  | false, [] => none
  | afterDigit, c :: cs =>
      if isDigit c then (digitsFrom? isDigit true cs).map (c :: ·)
      else if c = '_' ∧ afterDigit = true then digitsFrom? isDigit false cs
      else none

def digits? (isDigit : Char → Bool) (cs : List Char) : Option (List Char) :=
  digitsFrom? isDigit false cs

def natOf (base : Nat) (cs : List Char) : Nat :=
  cs.foldl (fun n c => n * base + (Text.hexValue? c).getD 0) 0

def splitSign : List Char → Bool × List Char
  | '-' :: cs => (true, cs)
  | '+' :: cs => (false, cs)
  | cs => (false, cs)

def plainDigits? (cs : List Char) : Option (List Char) :=
  match cs with
  | ['0'] => some ['0']
  | '0' :: _ => none
  | _ => digits? isDecimal cs

def maxInteger : Nat := Nat.pow 2 63 - 1

def radix? : Char → Option (Nat × (Char → Bool))
  | 'x' => some (16, fun c => (Text.hexValue? c).isSome)
  | 'o' => some (8, fun c => '0' ≤ c && c ≤ '7')
  | 'b' => some (2, fun c => c = '0' || c = '1')
  | _ => none

def radixInteger? (letter : Char) (cs : List Char) : Option Int := do
  let (base, isDigit) ← radix? letter
  let n := natOf base (← digits? isDigit cs)
  if n ≤ maxInteger then some n else none

def decimalInteger? (cs : List Char) : Option Int := do
  let (negative, rest) := splitSign cs
  let n := natOf 10 (← plainDigits? rest)
  if negative then if n ≤ maxInteger + 1 then some (-n) else none
  else if n ≤ maxInteger then some n else none

def integer? (cs : List Char) : Option Int :=
  match cs with
  | '0' :: letter :: rest =>
      if (radix? letter).isSome then radixInteger? letter rest else decimalInteger? cs
  | _ => decimalInteger? cs

/-- The least number that a double rounds to infinity. -/
def floatLimit : Nat := Nat.pow 2 1024 - Nat.pow 2 970

def isFiniteFloat (n : Nat) (e : Int) (places : Nat) : Bool :=
  let power := e - places
  if n = 0 then true
  else
    let size := (Nat.toDigits 10 n).length + power
    if size ≤ 308 then true
    else if 310 < size then false
    else if 0 ≤ power then n * Nat.pow 10 power.toNat < floatLimit
    else n < floatLimit * Nat.pow 10 (-power).toNat

def exponent? (cs : List Char) : Option Int := do
  let (negative, rest) := splitSign cs
  let n := natOf 10 (← digits? isDecimal rest)
  some (if negative then -n else n)

def isExponentMark (c : Char) : Bool :=
  c = 'e' || c = 'E'

def floatParts? (cs : List Char) : Option (List Char × List Char × Int) := do
  let mantissa := cs.takeWhile fun c => !isExponentMark c
  let whole ← plainDigits? (mantissa.takeWhile fun c => c != '.')
  let places ← match mantissa.dropWhile fun c => c != '.' with
    | [] => some []
    | _ :: rest => digits? isDecimal rest
  let e ← match cs.dropWhile fun c => !isExponentMark c with
    | [] => if places.isEmpty then none else some 0
    | _ :: rest => exponent? rest
  some (whole, places, e)

def isFloat (cs : List Char) : Bool :=
  let (negative, rest) := splitSign cs
  if rest = "inf".toList ∨ rest = "nan".toList then true
  else match floatParts? rest with
    | none => false
    | some (whole, places, e) =>
        negative || isFiniteFloat (natOf 10 (whole ++ places)) e places.length

def two? (limit : Nat) (a b : Char) : Option Nat :=
  if isDecimal a ∧ isDecimal b ∧ natOf 10 [a, b] ≤ limit then some (natOf 10 [a, b]) else none

def afterDate? : List Char → Option (List Char)
  | y₁ :: y₂ :: y₃ :: y₄ :: '-' :: m₁ :: m₂ :: '-' :: d₁ :: d₂ :: rest => do
      let century ← two? 99 y₁ y₂
      let year ← two? 99 y₃ y₄
      let month ← two? 12 m₁ m₂
      let day ← two? 31 d₁ d₂
      if 1 ≤ month ∧ 1 ≤ day ∧ day ≤ Calendar.daysInMonth (100 * century + year) month then some rest else none
  | _ => none

def afterTime? : List Char → Option (List Char)
  | h₁ :: h₂ :: ':' :: m₁ :: m₂ :: ':' :: s₁ :: s₂ :: rest => do
      let _ ← two? 23 h₁ h₂
      let _ ← two? 59 m₁ m₂
      let _ ← two? 60 s₁ s₂
      match rest with
      | '.' :: c :: cs => if isDecimal c then some (cs.dropWhile isDecimal) else none
      | _ => some rest
  | _ => none

def isOffset : List Char → Bool
  | [] => true
  | ['Z'] => true
  | ['z'] => true
  | [sign, h₁, h₂, ':', m₁, m₂] =>
      (sign = '+' || sign = '-') && (two? 23 h₁ h₂).isSome && (two? 59 m₁ m₂).isSome
  | _ => false

def isTimeWithOffset (cs : List Char) : Bool :=
  match afterTime? cs with
  | none => false
  | some rest => isOffset rest

def isDate (cs : List Char) : Bool :=
  afterDate? cs == some []

def isMoment (cs : List Char) : Bool :=
  match afterDate? cs with
  | none => afterTime? cs == some []
  | some [] => true
  | some (c :: rest) => (c = 'T' || c = 't' || c = ' ') && isTimeWithOffset rest

def scalar? (cs : List Char) : Option Value :=
  if cs = "true".toList then some (.boolean true)
  else if cs = "false".toList then some (.boolean false)
  else if isMoment cs then some (.moment (String.ofList cs))
  else match integer? cs with
    | some n => some (.integer n)
    | none => if isFloat cs then some (.float (String.ofList cs)) else none

def isScalarChar (c : Char) : Bool :=
  c.isAlphanum || c = '_' || c = '+' || c = '-' || c = '.' || c = ':'

def splitScalar (cs : List Char) : List Char × List Char :=
  let run := cs.takeWhile isScalarChar
  let rest := cs.dropWhile isScalarChar
  match rest with
  | ' ' :: more =>
      let next := more.takeWhile isScalarChar
      if isDate run = true ∧ next ≠ [] then (run ++ ' ' :: next, more.dropWhile isScalarChar)
      else (run, rest)
  | _ => (run, rest)

end TrustRoles.Toml
