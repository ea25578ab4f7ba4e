import TrustRoles.Failure
import TrustRoles.FileSystem
import TrustRoles.Interaction
import TrustRoles.Notice

namespace TrustRoles

namespace Disk

inductive Call where
  | read (p : Path)
  | isDirectory (p : Path)
  | isPresent (p : Path)
  | fileNames (p : Path)
  | makeDirectories (p : Path)
  | write (p : Path) (content : List UInt8)
  | note (n : Notice)

def Reply : Call → Type
  | .read _ => Except FileError (List UInt8)
  | .isDirectory _ => Bool
  | .isPresent _ => Bool
  | .fileNames _ => Except FileError (List String)
  | .makeDirectories _ => Except FileError Unit
  | .write _ _ => Except FileError Unit
  | .note _ => Unit

def interface : Interface := ⟨Call, Reply⟩

end Disk

abbrev DiskProgram := Interaction Disk.interface

namespace DiskProgram

def read (p : Path) : DiskProgram (Except FileError (List UInt8)) :=
  .call (.read p) fun r => .done r

def isDirectory (p : Path) : DiskProgram Bool :=
  .call (.isDirectory p) fun r => .done r

def isPresent (p : Path) : DiskProgram Bool :=
  .call (.isPresent p) fun r => .done r

def fileNames (p : Path) : DiskProgram (Except FileError (List String)) :=
  .call (.fileNames p) fun r => .done r

def makeDirectories (p : Path) : DiskProgram (Except FileError Unit) :=
  .call (.makeDirectories p) fun r => .done r

def write (p : Path) (content : List UInt8) : DiskProgram (Except FileError Unit) :=
  .call (.write p content) fun r => .done r

def note (n : Notice) : DiskProgram Unit :=
  .call (.note n) fun r => .done r

end DiskProgram

abbrev DiskTask := ExceptT Fault DiskProgram

structure World where
  files : FileSystem
  notices : List Notice

namespace World

def serve (w : World) : (c : Disk.Call) → Disk.Reply c × World
  | .read p => (w.files.read p, w)
  | .isDirectory p => (w.files.isDirectory p, w)
  | .isPresent p => (w.files.isPresent p, w)
  | .fileNames p => (w.files.fileNames p, w)
  | .makeDirectories p =>
      let r := w.files.makeDirectories p
      (r.1, { w with files := r.2 })
  | .write p content =>
      match w.files.write p content with
      | .ok files => (.ok (), { w with files := files })
      | .error e => (.error e, w)
  | .note n => ((), { w with notices := w.notices ++ [n] })

def run {α : Type} : DiskProgram α → World → α × World
  | .done a, w => (a, w)
  | .call c next, w =>
      let r := w.serve c
      run (next r.1) r.2

theorem run_bind {α β : Type} (p : DiskProgram α) (f : α → DiskProgram β) (w : World) :
    run (p >>= f) w = run (f (run p w).1) (run p w).2 := by
  induction p generalizing w with
  | done a => rfl
  | call c next ih => exact ih _ _

end World

end TrustRoles
