namespace TrustRoles

structure Path where
  text : String
  deriving DecidableEq, Repr

namespace Path

def splitAtSlash : List Char → List (List Char)
  | [] => [[]]
  | c :: cs =>
      if c = '/' then [] :: splitAtSlash cs
      else match splitAtSlash cs with
        | [] => [[c]]
        | w :: ws => (c :: w) :: ws

def isAbsolute (p : Path) : Bool :=
  p.text.toList.head? == some '/'

def endsInSlash (p : Path) : Bool :=
  p.text.toList.getLast? == some '/'

def steps (p : Path) : List String :=
  ((splitAtSlash p.text.toList).filter fun w => !w.isEmpty).map String.ofList

def join (p : Path) (name : String) : Path :=
  if p.text.isEmpty || p.endsInSlash then ⟨p.text ++ name⟩ else ⟨p.text ++ "/" ++ name⟩

def trimEnd : List Char → List Char
  | [] => []
  | ['/'] => ['/']
  | '/' :: c :: cs => trimEnd (c :: cs)
  | '.' :: '/' :: cs => trimEnd ('/' :: cs)
  | c :: cs => c :: cs

def parent? (p : Path) : Option Path :=
  match trimEnd p.text.toList.reverse with
  | [] => none
  | ['/'] => none
  | rev => some ⟨String.ofList (trimEnd (rev.dropWhile fun c => c != '/')).reverse⟩

def extension? (name : String) : Option String :=
  let rev := name.toList.reverse
  match rev.dropWhile fun c => c != '.' with
  | [] => none
  | ['.'] => none
  | _ => some (String.ofList (rev.takeWhile fun c => c != '.').reverse)

end Path

end TrustRoles
