import TrustRoles.Text.Hex

namespace TrustRoles

inductive Json where
  | null
  | boolean (b : Bool)
  | number (n : Nat)
  | text (s : String)
  | list (items : List Json)
  | record (fields : List (String × Json))

namespace Json

def escapedChar (c : Char) : List Char :=
  if c = '"' then ['\\', '"']
  else if c = '\\' then ['\\', '\\']
  else if c = '\x08' then ['\\', 'b']
  else if c = '\x0c' then ['\\', 'f']
  else if c = '\n' then ['\\', 'n']
  else if c = '\r' then ['\\', 'r']
  else if c = '\t' then ['\\', 't']
  else if c.toNat < 32 then
    ['\\', 'u', '0', '0', Text.hexDigit (c.toNat / 16), Text.hexDigit (c.toNat % 16)]
  else [c]

def literal (s : String) : List Char :=
  '"' :: s.toList.flatMap escapedChar ++ ['"']

def newline (depth : Nat) : List Char :=
  '\n' :: List.replicate (2 * depth) ' '

mutual

def layout (depth : Nat) : Json → List Char
  | null => "null".toList
  | boolean b => (if b then "true" else "false").toList
  | number n => (toString n).toList
  | text s => literal s
  | list [] => "[]".toList
  | list (v :: vs) =>
      '[' :: newline (depth + 1) ++ layout (depth + 1) v ++ layoutItems (depth + 1) vs ++
        newline depth ++ [']']
  | record [] => ['\x7b', '\x7d']
  | record ((k, v) :: fs) =>
      '\x7b' :: newline (depth + 1) ++ literal k ++ ": ".toList ++ layout (depth + 1) v ++
        layoutFields (depth + 1) fs ++ newline depth ++ ['\x7d']

def layoutItems (depth : Nat) : List Json → List Char
  | [] => []
  | v :: vs => ',' :: newline depth ++ layout depth v ++ layoutItems depth vs

def layoutFields (depth : Nat) : List (String × Json) → List Char
  | [] => []
  | (k, v) :: fs =>
      ',' :: newline depth ++ literal k ++ ": ".toList ++ layout depth v ++ layoutFields depth fs

end

def pretty (j : Json) : String :=
  String.ofList (layout 0 j)

end Json

end TrustRoles
