import TrustRoles.Disk
import TrustRoles.Settings.Document
import TrustRoles.Text.Utf8

namespace TrustRoles

/-- `home` is the home directory as the system finds it: by `HOME`, or by the account where that is
empty or not set. -/
structure Environment where
  home : Option String
  configHome : Option String
  deriving DecidableEq, Repr

namespace Environment

def settingsDirectory? (e : Environment) : Option Path :=
  match (e.configHome.map Path.mk).filter Path.isAbsolute with
  | some p => some p
  | none => (e.home.filter fun h => !h.isEmpty).map fun h => (Path.mk h).join ".config"

end Environment

structure SettingsFile where
  path : Path
  deriving DecidableEq, Repr

namespace SettingsFile

def standard (e : Environment) : SettingsFile :=
  match e.settingsDirectory? with
  | some d => ⟨(d.join "certstore-roles").join "config.toml"⟩
  | none => ⟨⟨"certstore-roles-config.toml"⟩⟩

def failure (action : String) (p : Path) (e : FileError) : Fault :=
  .configuration ("Failed to " ++ action ++ " " ++ p.text ++ ": " ++ e.message)

def content (f : SettingsFile) : DiskTask String := do
  match ← DiskProgram.read f.path with
  | .error e => throw (failure "read config file" f.path e)
  | .ok bytes =>
      match Text.ofUtf8? bytes with
      | none => throw (failure "read config file" f.path .notText)
      | some text => pure text

def load (f : SettingsFile) : DiskTask Settings := do
  DiskProgram.note (.settingsLoading f.path)
  let text ← f.content
  let settings ← liftExcept (Settings.ofText text)
  liftExcept settings.check

def save (f : SettingsFile) (s : Settings) : DiskTask Unit := do
  DiskProgram.note (.settingsSaving f.path)
  match f.path.parent? with
  | none => pure ()
  | some d =>
      match ← DiskProgram.makeDirectories d with
      | .error e => throw (failure "create config directory" d e)
      | .ok () => pure ()
  match ← DiskProgram.write f.path (Text.utf8 s.toText) with
  | .error e => throw (failure "write config file" f.path e)
  | .ok () => DiskProgram.note .settingsSaved

def loadOrDefault (f : SettingsFile) : DiskTask Settings := do
  if ← DiskProgram.isPresent f.path then f.load else pure .standard

def loadOrCreate (f : SettingsFile) : DiskTask Settings := do
  if ← DiskProgram.isPresent f.path then f.load
  else
    DiskProgram.note (.settingsCreating f.path)
    f.save .standard
    pure .standard

def loadExisting (f : SettingsFile) : DiskTask (Option Settings) := do
  if ← DiskProgram.isPresent f.path then some <$> f.load else pure none

def render (f : SettingsFile) (format : SettingsFormat) : DiskTask String := do
  let settings ← f.loadOrDefault
  pure (settings.render format)

end SettingsFile

end TrustRoles
