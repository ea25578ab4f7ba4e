import TrustRoles.Toml.Quoted
import TrustRoles.Toml.Scalar

namespace TrustRoles.Toml

def isBareKeyChar (c : Char) : Bool :=
  c.isAlphanum || c = '_' || c = '-'

def simpleKey? (cs : List Char) : Option (String × List Char) :=
  match cs with
  | '"' :: rest => (basicString? rest).map fun r => (String.ofList r.1, r.2)
  | '\'' :: rest => (literal? rest).map fun r => (String.ofList r.1, r.2)
  | _ =>
      let word := cs.takeWhile isBareKeyChar
      if word.isEmpty then none
      else some (String.ofList word, cs.dropWhile isBareKeyChar)

def keyWithin : Nat → List Char → Option (Key × List Char)
  | 0, _ => none
  | fuel + 1, cs => do
      let (k, rest) ← simpleKey? (dropBlanks cs)
      match dropBlanks rest with
      | '.' :: more => do
          let (ks, rest) ← keyWithin fuel more
          some (k :: ks, rest)
      | rest => some ([k], rest)

/-- How deep arrays and inline tables may be nested, and how many parts a key may have. -/
def depthLimit : Nat := 79

def key? (cs : List Char) : Option (Key × List Char) :=
  (keyWithin (cs.length + 1) cs).filter fun r => r.1.length ≤ depthLimit

def dropGapWithin : Nat → List Char → List Char
  | 0, cs => cs
  | fuel + 1, cs =>
      match dropSpace cs with
      | '#' :: rest =>
          match afterNewline? (rest.dropWhile isPlain) with
          | some next => dropGapWithin fuel next
          | none => '#' :: rest
      | rest => rest

def dropGap (cs : List Char) : List Char :=
  dropGapWithin (cs.length + 1) cs

def afterComment (cs : List Char) : List Char :=
  match cs with
  | '#' :: rest => rest.dropWhile isPlain
  | _ => cs

def afterLine? (cs : List Char) : Option (List Char) :=
  match afterComment (dropBlanks cs) with
  | [] => some []
  | rest => afterNewline? rest

mutual

def value? : Nat → Nat → List Char → Option (Value × List Char)
  | 0, _, _ => none
  | fuel + 1, depth, cs =>
      match cs, depth with
      | '"' :: _, _ => (string? cs).map fun r => (.text (String.ofList r.1), r.2)
      | '\'' :: _, _ => (string? cs).map fun r => (.text (String.ofList r.1), r.2)
      | '[' :: rest, depth + 1 =>
          (items? fuel depth (dropGap rest)).map fun r => (.array r.1, r.2)
      | '\x7b' :: rest, depth + 1 =>
          match dropBlanks rest with
          | '\x7d' :: rest => some (.table .inlined [], rest)
          | rest => (fields? fuel depth [] rest).map fun r => (.table .inlined r.1, r.2)
      | _, _ => (scalar? (splitScalar cs).1).map fun v => (v, (splitScalar cs).2)

def items? : Nat → Nat → List Char → Option (List Value × List Char)
  | 0, _, _ => none
  | fuel + 1, depth, cs =>
      match cs with
      | ']' :: rest => some ([], rest)
      | _ => do
          let (v, rest) ← value? fuel depth cs
          match dropGap rest with
          | ',' :: rest => (items? fuel depth (dropGap rest)).map fun r => (v :: r.1, r.2)
          | ']' :: rest => some ([v], rest)
          | _ => none

def fields? : Nat → Nat → Entries → List Char → Option (Entries × List Char)
  | 0, _, _, _ => none
  | fuel + 1, depth, es, cs => do
      let (k, rest) ← key? cs
      match rest with
      | '=' :: rest => do
          let (v, rest) ← value? fuel depth (dropBlanks rest)
          let (_, es) ← Entries.assign k v .inlined es
          match dropBlanks rest with
          | ',' :: rest => fields? fuel depth es rest
          | '\x7d' :: rest => some (es, rest)
          | _ => none
      | _ => none

end

def keyValue? (cs : List Char) : Option (Key × Value × List Char) := do
  let (k, rest) ← key? cs
  match rest with
  | '=' :: rest => do
      let (v, rest) ← value? (rest.length + 1) depthLimit (dropBlanks rest)
      some (k, v, rest)
  | _ => none

def statement? (d : Draft) (cs : List Char) : Option (Draft × List Char) :=
  match cs with
  | '[' :: '[' :: rest => do
      let (k, rest) ← key? rest
      match rest with
      | ']' :: ']' :: rest => (d.headNext k).map fun d => (d, rest)
      | _ => none
  | '[' :: rest => do
      let (k, rest) ← key? rest
      match rest with
      | ']' :: rest => (d.head k).map fun d => (d, rest)
      | _ => none
  | _ => do
      let (k, v, rest) ← keyValue? cs
      (d.assign k v).map fun d => (d, rest)

def linesWithin : Nat → Draft → List Char → Option Draft
  | 0, _, _ => none
  | fuel + 1, d, cs =>
      match dropBlanks cs with
      | [] => some d
      | c :: rest =>
          if c = '#' ∨ c = '\n' ∨ c = '\r' then
            (afterLine? (c :: rest)).bind (linesWithin fuel d)
          else do
            let (d, rest) ← statement? d (c :: rest)
            linesWithin fuel d (← afterLine? rest)

def byteOrderMark : Char := '\ufeff'

def withoutMark (cs : List Char) : List Char :=
  match cs with
  | c :: rest => if c = byteOrderMark then rest else cs
  | [] => []

def document? (cs : List Char) : Option Entries :=
  (linesWithin (cs.length + 1) .empty (withoutMark cs)).map Draft.root

end TrustRoles.Toml
