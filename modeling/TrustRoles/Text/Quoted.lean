import TrustRoles.Text.Hex
import TrustRoles.Text.Printable

namespace TrustRoles.Text

def codePointEscape (c : Char) : List Char :=
  '\\' :: 'u' :: '\x7b' :: hexNat c.toNat ++ ['\x7d']

def quotedChar (c : Char) : List Char :=
  if c = '\x00' then ['\\', '0']
  else if c = '\t' then ['\\', 't']
  else if c = '\r' then ['\\', 'r']
  else if c = '\n' then ['\\', 'n']
  else if c = '\\' ∨ c = '"' then ['\\', c]
  else if isExtender c || !isPrintable c then codePointEscape c
  else [c]

def quoted (s : String) : String :=
  "\"" ++ String.ofList (s.toList.flatMap quotedChar) ++ "\""

def quotedPath (s : String) : String :=
  let escape (c : Char) : List Char := if c = '\'' then ['\\', c] else quotedChar c
  "\"" ++ String.ofList (s.toList.flatMap escape) ++ "\""

end TrustRoles.Text
