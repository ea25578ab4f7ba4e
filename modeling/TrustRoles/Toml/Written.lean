import TrustRoles.Toml.Quoted

namespace TrustRoles.Toml

def longestRunFrom (q : Char) : Nat → Nat → List Char → Nat
  | _, best, [] => best
  | run, best, c :: cs =>
      if c = q then longestRunFrom q (run + 1) (max best (run + 1)) cs
      else longestRunFrom q 0 best cs

def longestRun (q : Char) (cs : List Char) : Nat :=
  longestRunFrom q 0 0 cs

inductive StringForm where
  | basic
  | literal
  | blockBasic
  | blockLiteral
  deriving DecidableEq, Repr

def needsEscape (c : Char) : Bool :=
  isControl c && c != '\t' && c != '\n'

def chooseForm (cs : List Char) : StringForm :=
  let controls := cs.any needsEscape
  let backslash := cs.contains '\\'
  let newline := cs.contains '\n'
  let single := longestRun '\'' cs
  let double := longestRun '"' cs
  if controls = false ∧ backslash = false ∧ double = 0 ∧ newline = false then .basic
  else if controls = false ∧ single = 0 ∧ newline = false then .literal
  else if controls = false ∧ backslash = false ∧ double ≤ 2 then .blockBasic
  else if controls = false ∧ single ≤ 2 then .blockLiteral
  else if newline then .blockBasic
  else .basic

def escapedChar (c : Char) : List Char :=
  if c = '\x08' then ['\\', 'b']
  else if c = '\t' then ['\\', 't']
  else if c = '\x0c' then ['\\', 'f']
  else if c = '\r' then ['\\', 'r']
  else if c = '\\' then ['\\', '\\']
  else if c = '\n' then ['\n']
  else if isControl c then
    ['\\', 'u', '0', '0', Text.hexDigitUpper (c.toNat / 16), Text.hexDigitUpper (c.toNat % 16)]
  else [c]

def escapedFrom (block : Bool) : Nat → List Char → List Char
  | _, [] => []
  | run, c :: cs =>
      if c = '"' then
        if block = true ∧ run < 2 then '"' :: escapedFrom block (run + 1) cs
        else '\\' :: '"' :: escapedFrom block 0 cs
      else escapedChar c ++ escapedFrom block 0 cs

def openingLine (cs : List Char) : List Char :=
  if cs.contains '\n' then ['\n'] else []

def writtenString (cs : List Char) : List Char :=
  match chooseForm cs with
  | .basic => '"' :: escapedFrom false 0 cs ++ ['"']
  | .literal => '\'' :: cs ++ ['\'']
  | .blockBasic =>
      ['"', '"', '"'] ++ openingLine cs ++ escapedFrom true 0 cs ++ ['"', '"', '"']
  | .blockLiteral => ['\'', '\'', '\''] ++ openingLine cs ++ cs ++ ['\'', '\'', '\'']

def arrayLine (item : List Char) : List Char :=
  "    ".toList ++ item ++ [',', '\n']

def writtenArray : List (List Char) → List Char
  | [] => ['[', ']']
  | [item] => '[' :: item ++ [']']
  | items => ['[', '\n'] ++ items.flatMap arrayLine ++ [']']

def writtenBoolean (b : Bool) : List Char :=
  if b then "true".toList else "false".toList

def entryLine (key : String) (value : List Char) : List Char :=
  key.toList ++ " = ".toList ++ value ++ ['\n']

end TrustRoles.Toml
