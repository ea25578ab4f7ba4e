import TrustRoles.Text.Ascii

namespace TrustRoles.CommandLine

inductive Misuse where
  | unknownOption (given : String)
  | unexpectedValue (option : String)
  | missingValue (option : String)
  | refusedValue (option value : String)
  | repeated (option : String)
  | unexpectedWord (word : String)
  | missingCommand
  deriving DecidableEq, Repr

namespace Misuse

def message : Misuse → String
  | unknownOption given => "unexpected argument " ++ given
  | unexpectedValue option => "no value is expected for --" ++ option
  | missingValue option => "a value is required for --" ++ option
  | refusedValue option value => "invalid value '" ++ value ++ "' for --" ++ option
  | repeated option => "--" ++ option ++ " cannot be given more than once"
  | unexpectedWord word => "unexpected argument '" ++ word ++ "'"
  | missingCommand => "a command is required"

end Misuse

inductive Stop where
  | misuse (m : Misuse)
  | help
  | version
  deriving DecidableEq, Repr

inductive Taking where
  | nothing
  | file
  | oneOf (choices : List String)
  | stopping (s : Stop)
  deriving DecidableEq, Repr

structure OptionForm where
  long : String
  short : Option Char
  taking : Taking
  deriving DecidableEq, Repr

namespace OptionForm

def needsValue (f : OptionForm) : Bool :=
  match f.taking with
  | .file | .oneOf _ => true
  | .nothing | .stopping _ => false

def accepts (f : OptionForm) (value : String) : Bool :=
  match f.taking with
  | .oneOf choices => choices.contains value
  | .file => !value.isEmpty
  | .nothing | .stopping _ => true

end OptionForm

structure Level where
  options : List OptionForm
  commands : List String
  takesWords : Bool
  deriving DecidableEq, Repr

structure Given where
  options : List (String × String)
  words : List String
  deriving DecidableEq, Repr

namespace Given

def empty : Given := ⟨[], []⟩

def value? (g : Given) (option : String) : Option String :=
  g.options.lookup option

def has (g : Given) (option : String) : Bool :=
  (g.value? option).isSome

def record (f : OptionForm) (value : String) (g : Given) : Except Stop Given :=
  match f.taking with
  | .stopping s => .error s
  | _ =>
      if !f.accepts value then .error (.misuse (.refusedValue f.long value))
      else if g.has f.long then .error (.misuse (.repeated f.long))
      else .ok { g with options := g.options ++ [(f.long, value)] }

end Given

inductive Argument where
  | separator
  | long (name : List Char) (value : Option (List Char))
  | short (letters : List Char)
  | word
  deriving DecidableEq, Repr

def Argument.ofText (s : String) : Argument :=
  match s.toList with
  | ['-', '-'] => .separator
  | '-' :: '-' :: cs =>
      .long (cs.takeWhile fun c => c != '=')
        (match cs.dropWhile fun c => c != '=' with
          | [] => none
          | _ :: value => some value)
  | '-' :: c :: cs => .short (c :: cs)
  | _ => .word

structure Progress where
  given : Given
  waiting : Option OptionForm
  deriving DecidableEq, Repr

namespace Progress

def start : Progress := ⟨.empty, none⟩

def settle (p : Progress) : Except Stop Given :=
  match p.waiting with
  | none => .ok p.given
  | some f => .error (.misuse (.missingValue f.long))

end Progress

namespace Level

def long? (l : Level) (name : String) : Option OptionForm :=
  l.options.find? fun f => f.long == name

def short? (l : Level) (letter : Char) : Option OptionForm :=
  l.options.find? fun f => f.short == some letter

def takeLong (l : Level) (name : List Char) (value : Option (List Char)) (g : Given) :
    Except Stop Progress :=
  match l.long? (String.ofList name), value with
  | none, _ => .error (.misuse (.unknownOption ("--" ++ String.ofList name)))
  | some f, none =>
      if f.needsValue then .ok ⟨g, some f⟩ else do pure ⟨← g.record f "", none⟩
  | some f, some v =>
      if f.needsValue then do pure ⟨← g.record f (String.ofList v), none⟩
      else .error (.misuse (.unexpectedValue f.long))

def takeShort (l : Level) : List Char → Given → Except Stop Progress
  | [], g => .ok ⟨g, none⟩
  | c :: cs, g =>
      match l.short? c with
      | none => .error (.misuse (.unknownOption ("-" ++ String.ofList [c])))
      | some f =>
          if !f.needsValue then do l.takeShort cs (← g.record f "")
          else match cs with
            | [] => .ok ⟨g, some f⟩
            | '=' :: v => do pure ⟨← g.record f (String.ofList v), none⟩
            | v => do pure ⟨← g.record f (String.ofList v), none⟩

def takeWord (l : Level) (word : String) (g : Given) : Except Stop Given :=
  if !l.takesWords then .error (.misuse (.unexpectedWord word))
  else if word.isEmpty then .error (.misuse (.unexpectedWord word))
  else .ok { g with words := g.words ++ [word] }

def takeWords (l : Level) : List String → Given → Except Stop Given
  | [], g => .ok g
  | w :: ws, g => do l.takeWords ws (← l.takeWord w g)

def scan (l : Level) (p : Progress) : List String → Except Stop (Given × List String)
  | [] => do pure (← p.settle, [])
  | a :: rest =>
      match Argument.ofText a, p.waiting with
      | .separator, _ => do pure (← l.takeWords rest (← p.settle), [])
      | .long name value, _ => do l.scan (← l.takeLong name value (← p.settle)) rest
      | .short letters, _ => do l.scan (← l.takeShort letters (← p.settle)) rest
      | .word, some f => do l.scan ⟨← p.given.record f a, none⟩ rest
      | .word, none =>
          if l.commands.contains a then .ok (p.given, a :: rest)
          else do l.scan ⟨← l.takeWord a p.given, none⟩ rest

end Level

end TrustRoles.CommandLine
