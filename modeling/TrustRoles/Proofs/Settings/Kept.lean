import TrustRoles.Proofs.Files.OnDisk
import TrustRoles.Proofs.Files.Written
import TrustRoles.Proofs.Settings.Document
import TrustRoles.Settings.File

namespace TrustRoles

theorem Settings.check_eq_ok_iff {s checked : Settings} :
    s.check = .ok checked ↔ s.defect? = none ∧ checked = s := by
  rw [check]
  cases s.defect? with
  | none => simp [eq_comm]
  | some d => simp

namespace SettingsFile

open World (Reads)

variable {f g : SettingsFile} {s : Settings} {w v : World} {files : FileSystem} {text : String}

def textOf (f : SettingsFile) : Except FileError (List UInt8) → Except Fault String
  | .error e => .error (failure "read config file" f.path e)
  | .ok bytes =>
      match Text.ofUtf8? bytes with
      | none => .error (failure "read config file" f.path .notText)
      | some text => .ok text

def settingsIn (f : SettingsFile) (files : FileSystem) : Except Fault Settings :=
  (f.textOf (files.read f.path)).bind fun text => (Settings.ofText text).bind Settings.check

theorem reads_content (f : SettingsFile) :
    Reads f.content fun files => f.textOf (files.read f.path) := by
  refine @Reads.bind _ _ _ _ _ (fun found _ => f.textOf found) (Reads.read f.path) fun found => ?_
  cases found with
  | error e => exact fun w => ⟨rfl, rfl⟩
  | ok bytes =>
      simp only [textOf]
      cases Text.ofUtf8? bytes with
      | none => exact fun w => ⟨rfl, rfl⟩
      | some text => exact Reads.pure text

theorem reads_load (f : SettingsFile) : Reads f.load f.settingsIn := by
  have reads := (Reads.note (.settingsLoading f.path)).bind fun _ =>
    f.reads_content.bind fun text => (Reads.lifted (Settings.ofText text)).bind fun settings =>
      Reads.lifted settings.check
  exact reads.of_eq fun files => rfl

def settingsOrStandardIn (f : SettingsFile) (files : FileSystem) : Except Fault Settings :=
  if files.isPresent f.path then f.settingsIn files else .ok .standard

theorem reads_loadOrDefault (f : SettingsFile) : Reads f.loadOrDefault f.settingsOrStandardIn := by
  have choose : ∀ isPresent : Bool, Reads
      (if isPresent then f.load else pure Settings.standard)
      fun files => if isPresent then f.settingsIn files else .ok Settings.standard := by
    intro isPresent
    cases isPresent with
    | false => exact Reads.pure Settings.standard
    | true => exact f.reads_load
  exact (Reads.isPresent f.path).bind choose

theorem reads_render (f : SettingsFile) (format : SettingsFormat) : Reads (f.render format)
    fun files => (f.settingsOrStandardIn files).map fun settings => settings.render format := by
  have reads := f.reads_loadOrDefault.bind fun settings => Reads.pure (settings.render format)
  refine reads.of_eq fun files => ?_
  cases f.settingsOrStandardIn files <;> rfl

def writeOut (f : SettingsFile) (s : Settings) : DiskTask Unit := do
  match ← DiskProgram.write f.path (Text.utf8 s.toText) with
  | .error e => throw (failure "write config file" f.path e)
  | .ok () => DiskProgram.note .settingsSaved

theorem write_of_writeOut (filed : (World.run (f.writeOut s).run w).1 = .ok ()) :
    w.files.write f.path (Text.utf8 s.toText) = .ok (World.run (f.writeOut s).run w).2.files := by
  unfold writeOut at filed ⊢
  cases written : w.files.write f.path (Text.utf8 s.toText) with
  | error e =>
      rw [World.run_write_bind_error written] at filed
      cases filed
  | ok made =>
      rw [World.run_write_bind_ok written]
      rfl

theorem exists_write_of_save (saved : (World.run (f.save s).run w).1 = .ok ()) :
    ∃ before : FileSystem, before.write f.path (Text.utf8 s.toText) =
      .ok (World.run (f.save s).run w).2.files := by
  unfold save at saved ⊢
  obtain ⟨_, -, noted⟩ := World.run_bind_eq_ok saved
  rw [noted] at saved ⊢
  cases parent : f.path.parent? with
  | none =>
      simp only [parent] at saved ⊢
      exact ⟨_, write_of_writeOut saved⟩
  | some d =>
      simp only [parent] at saved ⊢
      obtain ⟨made, -, rest⟩ := World.run_bind_eq_ok saved
      rw [rest] at saved ⊢
      cases made with
      | error e => cases saved
      | ok _ => exact ⟨_, write_of_writeOut saved⟩

theorem settingsIn_of_text {bytes : List UInt8} (held : files.read f.path = .ok bytes)
    (said : Text.ofUtf8? bytes = some text) :
    f.settingsIn files = (Settings.ofText text).bind Settings.check := by
  rw [settingsIn, held, textOf, said]
  rfl

theorem settingsIn_of_read (kept : files.read f.path = .ok (Text.utf8 s.toText)) :
    f.settingsIn files = s.check := by
  rw [settingsIn_of_text kept (Text.ofUtf8?_utf8 _), Settings.ofText_toText]
  rfl

theorem load_of_read (kept : w.files.read f.path = .ok (Text.utf8 s.toText)) :
    (World.run f.load.run w).1 = s.check := by
  rw [(f.reads_load w).1, settingsIn_of_read kept]

theorem render_of_write {before : FileSystem}
    (written : before.write f.path (Text.utf8 s.toText) = .ok w.files) (valid : s.check = .ok s) :
    (World.run (f.render .toml).run w).1 = .ok s.toText := by
  have loaded := load_of_read (FileSystem.read_of_write written)
  rw [(f.reads_load w).1, valid] at loaded
  have rendered := (f.reads_render .toml w).1
  dsimp only at rendered
  rw [rendered, settingsOrStandardIn, FileSystem.isPresent_of_write written, if_pos rfl, loaded]
  rfl

theorem round_trip (saved : (World.run (f.save s).run w).1 = .ok ()) :
    let after := (World.run (f.save s).run w).2
    (∀ checked, s.check = .ok checked → (World.run f.load.run after).1 = .ok s) ∧
    (∀ e, s.check = .error e → (World.run f.load.run after).1 = .error e) ∧
    ((∃ checked, s.check = .ok checked) → ∃ text, after.files.read f.path = .ok (Text.utf8 text) ∧
      (World.run (f.render .toml).run after).1 = .ok text ∧
      ∀ (g : SettingsFile) (v : World), v.files.read g.path = .ok (Text.utf8 text) →
        (World.run g.load.run v).1 = .ok s) := by
  intro after
  obtain ⟨before, written⟩ := exists_write_of_save saved
  have kept := FileSystem.read_of_write written
  have unchanged {checked : Settings} (valid : s.check = .ok checked) : s.check = .ok s :=
    (Settings.check_eq_ok_iff.mp valid).2 ▸ valid
  refine ⟨fun checked valid => ?_, fun e invalid => ?_, ?_⟩
  · rw [load_of_read kept, unchanged valid]
  · rw [load_of_read kept, invalid]
  · rintro ⟨checked, valid⟩
    refine ⟨s.toText, kept, render_of_write written (unchanged valid), fun g v copied => ?_⟩
    rw [load_of_read copied, unchanged valid]

def quoted : Settings :=
  ⟨[⟨"it's \"here\""⟩, ⟨"C:\\certs\n\'\'\'\x01\"\"\""⟩], .json, "WARN", true⟩

theorem round_trip_of_quoted :
    let f : SettingsFile := ⟨⟨"a.toml"⟩⟩
    let saving := World.run (f.save quoted).run ⟨FileSystem.bare ["d"], []⟩
    saving.1 = .ok () ∧ (World.run f.load.run saving.2).1 = .ok quoted ∧
      ∃ text, saving.2.files.read f.path = .ok (Text.utf8 text) ∧
        (World.run (f.render .toml).run saving.2).1 = .ok text := by
  intro f saving
  have ended : saving.1.isOk = true := by decide +kernel
  have saved : saving.1 = .ok () := by
    cases outcome : saving.1 with
    | error e =>
        rw [outcome] at ended
        cases ended
    | ok _ => rfl
  have valid : quoted.check = .ok quoted :=
    Settings.check_eq_ok_iff.mpr ⟨by decide +kernel, rfl⟩
  obtain ⟨loaded, -, rendered⟩ := round_trip saved
  obtain ⟨text, kept, shown, -⟩ := rendered ⟨_, valid⟩
  exact ⟨saved, loaded _ valid, text, kept, shown⟩

end SettingsFile

end TrustRoles
