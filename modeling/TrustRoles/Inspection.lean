import TrustRoles.Collection.Source
import TrustRoles.Memo
import TrustRoles.Report

namespace TrustRoles.Inspection

def inspect (alive : Nat → Bool) (place : Nat) (memo : Memo) :
    Consultation (Except Fault Report × Memo) := do
  let (outcome, memo) ← memo.fetch alive place
  match outcome with
  | .error f => pure (.error (.roles f), memo)
  | .ok filed =>
      match ← Consultation.ask .any with
      | .error f => pure (.error (.roles (.query f)), memo)
      | .ok members =>
          Consultation.note (.resolved filed.assignment)
          pure (.ok (.ofMembers members filed.assignment), memo)

def inspectPaths (alive : Nat → Bool) (place number : Nat) (paths : List Path) (memo : Memo) :
    DiskProgram (Except Fault Report × Memo) := do
  if paths.isEmpty then pure (.error (.configuration "No certificate files given"), memo)
  else
    DiskProgram.note (.inspecting paths.length)
    let source := Source.files ⟨number, paths, none⟩
    let (result, _) ← source.consult (inspect (fun p => p == place || alive p) place memo)
    pure result

end TrustRoles.Inspection
