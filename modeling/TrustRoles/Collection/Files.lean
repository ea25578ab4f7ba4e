import TrustRoles.Certificate.Bundle
import TrustRoles.Collection
import TrustRoles.Disk

namespace TrustRoles

structure FileSource where
  number : Nat
  paths : List Path
  loaded : Option (List Member)
  deriving DecidableEq, Repr

namespace FileSource

def endings : List String := ["pem", "crt", "cer", "der"]

def isCertificateName (name : String) : Bool :=
  match Path.extension? name with
  | none => false
  | some e => endings.contains (e.map Char.toLower)

def sortNames (names : List String) : List String :=
  names.mergeSort fun a b => !decide (b < a)

def inside (p : Path) : Except FileError (List String) → Except Fault (List Path)
  | .error e => .error (.io e.message)
  | .ok names => .ok ((sortNames (names.filter isCertificateName)).map p.join)

def expand (p : Path) : DiskTask (List Path) := do
  if ← DiskProgram.isDirectory p then inside p (← DiskProgram.fileNames p)
  else pure [p]

def expandAll : List Path → DiskTask (List Path)
  | [] => pure []
  | p :: ps => do
      let here ← expand p
      let there ← expandAll ps
      pure (here ++ there)

def blame (p : Path) : Fault → Fault
  | .encoding defect => .certificate (p.text ++ ": " ++ defect.reason)
  | .certificate reason => .certificate (p.text ++ ": " ++ reason)
  | f => f

def parse (p : Path) : Except FileError (List UInt8) → Except Fault (List Profile)
  | .error e => .error (.io ("Failed to read " ++ p.text ++ ": " ++ e.message))
  | .ok bytes => (Bundle.profiles bytes).mapError (blame p)

def load (p : Path) : DiskTask (List Profile) := do
  let profiles ← parse p (← DiskProgram.read p)
  DiskProgram.note (.fileLoaded profiles.length p)
  pure profiles

def loadAll : List Path → DiskTask (List Profile)
  | [] => pure []
  | p :: ps => do
      let here ← load p
      let there ← loadAll ps
      pure (here ++ there)

def readAll (s : FileSource) : DiskTask (List Member) := do
  let profiles ← loadAll (← expandAll s.paths)
  DiskProgram.note (.filesLoaded profiles.length s.paths.length)
  pure (Member.number s.number profiles)

def snapshot (s : FileSource) : DiskProgram (Except Fault (List Member) × FileSource) := do
  match s.loaded with
  | some members => pure (.ok members, s)
  | none =>
      match ← s.readAll.run with
      | .error f => pure (.error f, s)
      | .ok members => pure (.ok members, { s with loaded := some members })

def answer (c : Criterion) (s : FileSource) : DiskProgram (Answer × FileSource) := do
  let (outcome, after) ← s.snapshot
  match outcome with
  | .error f => pure (.error f.toQueryFailure, after)
  | .ok members => pure (.ok (members.filter fun m => c.accepts m.profile), after)

def dump (s : FileSource) : String :=
  let loaded := match s.loaded with
    | none => "None"
    | some members => "Some(" ++ toString members.length ++ ")"
  "FileCertStore \x7b paths: [" ++ ", ".intercalate (s.paths.map fun p => Text.quotedPath p.text) ++
    "], loaded: " ++ loaded ++ " \x7d"

end FileSource

end TrustRoles
