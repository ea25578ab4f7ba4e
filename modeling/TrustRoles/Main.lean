import TrustRoles.CommandLine

namespace TrustRoles.Main

/-- The system's number for a directory where a file was wanted. -/
def directoryCode : UInt32 := 21

def fileError (e : IO.Error) : FileError :=
  match e with
  | .noFileOrDirectory .. => .notFound
  | .alreadyExists .. => .alreadyExists
  | .permissionDenied .. => .permissionDenied
  | .inappropriateType _ code _ => if code = directoryCode then .isADirectory else .notADirectory
  | e => .other (toString e)

def attempt {α : Type} (act : IO α) : IO (Except FileError α) := do
  try
    let a ← act
    pure (.ok a)
  catch e => pure (.error (fileError e))

def namesIn (p : Path) : IO (List String) := do
  let here ← IO.currentDir
  let dir := here / p.text
  let entries ← dir.readDir
  let files ← entries.filterM fun e => do
    match ← e.path.metadata.toBaseIO with
    | .ok kind => pure (kind.type == .file)
    | .error _ => pure false
  pure (files.toList.map fun e => e.fileName)

def leadsToDirectory (p : Path) : IO Bool := do
  let here ← IO.currentDir
  (here / p.text).isDir

def leadsSomewhere (p : Path) : IO Bool := do
  let here ← IO.currentDir
  (here / p.text).pathExists

def serve (notices : IO.Ref (List Notice)) : (c : Disk.Call) → IO (Disk.Reply c)
  | .read p => attempt do
      let bytes ← IO.FS.readBinFile p.text
      pure bytes.data.toList
  | .isDirectory p => leadsToDirectory p
  | .isPresent p => leadsSomewhere p
  | .fileNames p => attempt (namesIn p)
  | .makeDirectories p =>
      if p.text.isEmpty then pure (.ok ()) else attempt (IO.FS.createDirAll p.text)
  | .write p content => attempt (IO.FS.writeBinFile p.text ⟨content.toArray⟩)
  | .note n => notices.modify (· ++ [n])

end TrustRoles.Main

open TrustRoles in
def main (args : List String) : IO UInt32 := do
  -- the account is not asked for its directory where `HOME` is not set
  let environment : Environment := ⟨← IO.getEnv "HOME", ← IO.getEnv "XDG_CONFIG_HOME"⟩
  let notices ← IO.mkRef []
  let outcome ← (CommandLine.run environment args).interpret (Main.serve notices)
  for n in ← notices.get do
    if n.severity.isShownAt outcome.logLevel then
      IO.eprintln ("[" ++ n.severity.name ++ "] " ++ n.text toString)
  unless outcome.complaint.isEmpty do
    IO.eprintln ("Error: " ++ outcome.complaint)
  IO.print outcome.output
  pure (UInt32.ofNat outcome.status)
