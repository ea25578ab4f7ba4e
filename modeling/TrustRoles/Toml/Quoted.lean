import TrustRoles.Text.Hex

namespace TrustRoles.Toml

abbrev Scan := Option (List Char × List Char)

def isControl (c : Char) : Bool :=
  c.toNat < 32 || c.toNat = 127

def isPlain (c : Char) : Bool :=
  c = '\t' || !isControl c

def afterNewline? : List Char → Option (List Char)
  | '\n' :: cs => some cs
  | '\r' :: '\n' :: cs => some cs
  | _ => none

def isBlank (c : Char) : Bool :=
  c = ' ' || c = '\t'

def dropBlanks (cs : List Char) : List Char :=
  cs.dropWhile isBlank

def dropSpace : List Char → List Char
  | '\r' :: '\n' :: cs => dropSpace cs
  | c :: cs => if isBlank c = true ∨ c = '\n' then dropSpace cs else c :: cs
  | [] => []

def simpleEscape? : Char → Option Char
  | 'b' => some '\x08'
  | 't' => some '\t'
  | 'n' => some '\n'
  | 'f' => some '\x0c'
  | 'r' => some '\r'
  | '"' => some '"'
  | '\\' => some '\\'
  | _ => none

def codePoint? (digits : List Char) : Option Char := do
  let values ← digits.mapM Text.hexValue?
  let n := values.foldl (fun n d => 16 * n + d) 0
  if n.isValidChar then some (Char.ofNat n) else none

def escape? : List Char → Option (Char × List Char)
  | 'u' :: a :: b :: c :: d :: cs => (codePoint? [a, b, c, d]).map fun x => (x, cs)
  | 'U' :: a :: b :: c :: d :: e :: f :: g :: h :: cs =>
      (codePoint? [a, b, c, d, e, f, g, h]).map fun x => (x, cs)
  | c :: cs => (simpleEscape? c).map fun x => (x, cs)
  | [] => none

def push (c : Char) : Scan → Scan :=
  Option.map fun r => (c :: r.1, r.2)

def basic? : Nat → List Char → Scan
  | 0, _ => none
  | fuel + 1, cs =>
      match cs with
      | [] => none
      | '"' :: rest => some ([], rest)
      | '\\' :: rest => do
          let (c, rest) ← escape? rest
          push c (basic? fuel rest)
      | c :: rest => if isPlain c then push c (basic? fuel rest) else none

def literal? : List Char → Scan
  | [] => none
  | c :: cs =>
      if c = '\'' then some ([], cs) else if isPlain c then push c (literal? cs) else none

def closing? (q : Char) : List Char → Option Scan
  | a :: b :: c :: d :: e :: cs =>
      if a = q ∧ b = q ∧ c = q then
        if d = q then if e = q then some (some ([q, q], cs)) else some (some ([q], e :: cs))
        else some (some ([], d :: e :: cs))
      else none
  | [a, b, c, d] =>
      if a = q ∧ b = q ∧ c = q then
        if d = q then some (some ([q], [])) else some (some ([], [d]))
      else none
  | [a, b, c] => if a = q ∧ b = q ∧ c = q then some (some ([], [])) else none
  | _ => none

def blockBasic? : Nat → List Char → Scan
  | 0, _ => none
  | fuel + 1, cs =>
      match closing? '"' cs with
      | some r => r
      | none =>
          match cs with
          | [] => none
          | '\\' :: rest =>
              match afterNewline? (dropBlanks rest) with
              | some next => blockBasic? fuel (dropSpace next)
              | none => do
                  let (c, rest) ← escape? rest
                  push c (blockBasic? fuel rest)
          | '\r' :: '\n' :: rest => push '\n' (blockBasic? fuel rest)
          | c :: rest => if isPlain c = true ∨ c = '\n' then push c (blockBasic? fuel rest) else none

def blockLiteral? : Nat → List Char → Scan
  | 0, _ => none
  | fuel + 1, cs =>
      match closing? '\'' cs with
      | some r => r
      | none =>
          match cs with
          | [] => none
          | '\r' :: '\n' :: rest => push '\n' (blockLiteral? fuel rest)
          | c :: rest => if isPlain c = true ∨ c = '\n' then push c (blockLiteral? fuel rest) else none

def openBlock (cs : List Char) : List Char :=
  (afterNewline? cs).getD cs

def basicString? (cs : List Char) : Scan :=
  basic? (cs.length + 1) cs

def blockBasicString? (cs : List Char) : Scan :=
  blockBasic? (cs.length + 1) (openBlock cs)

def blockLiteralString? (cs : List Char) : Scan :=
  blockLiteral? (cs.length + 1) (openBlock cs)

def string? : List Char → Scan
  | '"' :: '"' :: '"' :: cs => blockBasicString? cs
  | '"' :: cs => basicString? cs
  | '\'' :: '\'' :: '\'' :: cs => blockLiteralString? cs
  | '\'' :: cs => literal? cs
  | _ => none

end TrustRoles.Toml
