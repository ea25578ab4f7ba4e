import TrustRoles.Proofs.Settings.Saved

namespace TrustRoles

namespace FileSystem

variable {fs after : FileSystem} {p : Path}

theorem Grows.find (grows : Grows (Encloses (fs.placeOf p)) fs after) (rooted : fs.Rooted)
    (down : ".." ∉ p.steps) {r : Location × Node} (found : after.find p = .ok r) :
    fs.find p = .ok r := by
  obtain ⟨loc, n⟩ := r
  obtain ⟨legal, walked, filed⟩ := exists_walk_of_find found
  have start : after.start p = fs.start p := by
    rw [FileSystem.start, FileSystem.start, grows.here]
  have there : loc = fs.placeOf p := by
    rw [placeOf, ← start]
    exact walk_plain down walked
  have before : fs.node? loc = some n := by
    cases missing : fs.node? loc with
    | none => exact absurd there (grows.added loc n missing filed).2.1
    | some m =>
        obtain rfl : m = n := Option.some.inj ((grows.kept loc m missing).symm.trans filed)
        rfl
  rw [find_of_walk legal walked, filed] at found
  rw [start] at walked
  rw [find_of_walk legal (grows.walk rooted down walked before), before]
  exact found

theorem Grows.isPresent (grows : Grows (Encloses (fs.placeOf p)) fs after) (rooted : fs.Rooted)
    (down : ".." ∉ p.steps) (absent : fs.isPresent p = false) : after.isPresent p = false := by
  rw [FileSystem.isPresent] at absent ⊢
  cases found : after.find p with
  | error e => rfl
  | ok r =>
      rw [grows.find rooted down found] at absent
      cases absent

end FileSystem

namespace SettingsFile

open FileSystem (Grows Encloses Saved)
open World (Reads)

variable {f : SettingsFile} {w : World} {files : FileSystem} {s : Settings} {e : Fault}

inductive Unusable (f : SettingsFile) (files : FileSystem) : Prop
  | unreadable {e : FileError} (failed : files.read f.path = .error e)
  | notText {bytes : List UInt8} (held : files.read f.path = .ok bytes)
      (broken : Text.ofUtf8? bytes = none)
  | malformed {bytes : List UInt8} {text : String} {e : Fault}
      (held : files.read f.path = .ok bytes) (said : Text.ofUtf8? bytes = some text)
      (refused : Settings.ofText text = .error e)
  | invalid {bytes : List UInt8} {text : String} {s : Settings} {d : Settings.Defect}
      (held : files.read f.path = .ok bytes) (said : Text.ofUtf8? bytes = some text)
      (meant : Settings.ofText text = .ok s) (defect : s.defect? = some d)

theorem exists_error_of_unusable (h : f.Unusable files) : ∃ e, f.settingsIn files = .error e := by
  cases h with
  | unreadable failed =>
      rw [settingsIn, failed]
      exact ⟨_, rfl⟩
  | notText held broken =>
      rw [settingsIn, held, textOf, broken]
      exact ⟨_, rfl⟩
  | malformed held said refused =>
      rw [settingsIn_of_text held said, refused]
      exact ⟨_, rfl⟩
  | @invalid _ _ s d held said meant defect =>
      have refused : s.check = .error d.toFault := by rw [Settings.check, defect]
      rw [settingsIn_of_text held said, meant]
      exact ⟨_, refused⟩

theorem unusable_of_error (failed : f.settingsIn files = .error e) : f.Unusable files := by
  cases held : files.read f.path with
  | error e => exact .unreadable held
  | ok bytes =>
      cases said : Text.ofUtf8? bytes with
      | none => exact .notText held said
      | some text =>
          rw [settingsIn_of_text held said] at failed
          cases meant : Settings.ofText text with
          | error e => exact .malformed held said meant
          | ok s =>
              rw [meant] at failed
              cases defect : s.defect? with
              | some d => exact .invalid held said meant defect
              | none => cases (Settings.check_eq_ok_iff.mpr ⟨defect, rfl⟩).symm.trans failed

theorem unusable_iff : f.Unusable files ↔ ∃ e, f.settingsIn files = .error e :=
  ⟨exists_error_of_unusable, fun ⟨_, failed⟩ => unusable_of_error failed⟩

theorem reads_loadExisting (f : SettingsFile) : Reads f.loadExisting fun files =>
    if files.isPresent f.path then (f.settingsIn files).map some else .ok none := by
  have choose : ∀ isPresent : Bool, Reads
      (if isPresent then some <$> f.load else pure none)
      fun files => if isPresent then (f.settingsIn files).map some else .ok none := by
    intro isPresent
    cases isPresent with
    | false => exact Reads.pure none
    | true => exact f.reads_load.map some
  exact (Reads.isPresent f.path).bind choose

def create (f : SettingsFile) : DiskTask Settings := do
  DiskProgram.note (.settingsCreating f.path)
  f.save .standard
  pure .standard

theorem run_loadOrCreate (f : SettingsFile) (w : World) : World.run f.loadOrCreate.run w =
    World.run (if w.files.isPresent f.path then f.load else f.create).run w :=
  rfl

theorem run_create (f : SettingsFile) (w : World) :
    let saving := World.run (f.save .standard).run
      ⟨w.files, w.notices ++ [.settingsCreating f.path]⟩
    World.run f.create.run w = (saving.1.map fun _ => Settings.standard, saving.2) := by
  change World.run (f.save .standard >>= fun _ => pure Settings.standard).run
    ⟨w.files, w.notices ++ [.settingsCreating f.path]⟩ = _
  rw [World.run_task_bind]
  cases (World.run (f.save .standard).run _).1 <;> rfl

/-- However the log stands, the task ends like this on these files, and leaves them as they are. -/
def Ends {α : Type} (files : FileSystem) (task : DiskTask α) (r : Except Fault α) : Prop :=
  ∀ w : World, w.files = files →
    (World.run task.run w).1 = r ∧ (World.run task.run w).2.files = files

theorem ends_of_reads {α : Type} {task : DiskTask α} {find : FileSystem → Except Fault α}
    (reads : Reads task find) (files : FileSystem) : Ends files task (find files) := by
  rintro w rfl
  exact reads w

structure Gives (f : SettingsFile) (files : FileSystem) (r : Except Fault Settings) : Prop where
  load : Ends files f.load r
  loadOrDefault : Ends files f.loadOrDefault r
  loadOrCreate : Ends files f.loadOrCreate r
  loadExisting : Ends files f.loadExisting (r.map some)

theorem gives_of_isPresent (present : files.isPresent f.path = true) :
    f.Gives files (f.settingsIn files) where
  load := ends_of_reads f.reads_load files
  loadOrDefault := by
    have ends := ends_of_reads f.reads_loadOrDefault files
    rwa [settingsOrStandardIn, present, if_pos rfl] at ends
  loadOrCreate := by
    rintro w rfl
    rw [run_loadOrCreate, present, if_pos rfl]
    exact f.reads_load w
  loadExisting := by
    have ends := ends_of_reads f.reads_loadExisting files
    rwa [present, if_pos rfl] at ends

theorem check_of_settingsIn (loaded : f.settingsIn files = .ok s) : s.check = .ok s := by
  obtain ⟨text, -, meant⟩ := FileSource.bind_eq_ok.mp loaded
  obtain ⟨settings, -, checked⟩ := FileSource.bind_eq_ok.mp meant
  obtain ⟨valid, rfl⟩ := Settings.check_eq_ok_iff.mp checked
  exact checked

theorem check_standard : Settings.standard.check = .ok .standard :=
  Settings.check_eq_ok_iff.mpr ⟨by decide +kernel, rfl⟩

theorem files_of_writeOut_error (failed : (World.run (f.writeOut s).run w).1 = .error e) :
    (World.run (f.writeOut s).run w).2.files = w.files := by
  rw [writeOut] at failed ⊢
  cases written : w.files.write f.path (Text.utf8 s.toText) with
  | error e =>
      rw [World.run_write_bind_error written]
      rfl
  | ok made =>
      rw [World.run_write_bind_ok written] at failed
      cases failed

theorem grows_of_save_error (down : ".." ∉ f.path.steps)
    (failed : (World.run (f.save s).run w).1 = .error e) :
    Grows (Encloses (w.files.placeOf f.path)) w.files (World.run (f.save s).run w).2.files := by
  rcases save_cases (s := s) down with ⟨-, -, enclosing⟩ | ⟨v, enclosing, ran⟩
  · exact enclosing
  · rw [ran] at failed ⊢
    rw [files_of_writeOut_error failed]
    exact enclosing

inductive Created (f : SettingsFile) (files : FileSystem) :
    Except Fault Settings → FileSystem → Prop
  | saved {after : FileSystem}
      (grows : Grows (Saved (files.placeOf f.path) (Text.utf8 Settings.standard.toText)) files
        after)
      (present : after.isPresent f.path = true)
      (kept : after.read f.path = .ok (Text.utf8 Settings.standard.toText)) :
      Created f files (.ok .standard) after
  | failed {e : Fault} {after : FileSystem}
      (grows : Grows (Encloses (files.placeOf f.path)) files after)
      (absent : after.isPresent f.path = false) : Created f files (.error e) after

theorem created_of_absent (rooted : w.files.Rooted) (down : ".." ∉ f.path.steps)
    (absent : w.files.isPresent f.path = false) :
    f.Created w.files (World.run f.loadOrCreate.run w).1
      (World.run f.loadOrCreate.run w).2.files := by
  let v : World := ⟨w.files, w.notices ++ [.settingsCreating f.path]⟩
  rw [run_loadOrCreate, absent, if_neg Bool.false_ne_true, run_create]
  cases saved : (World.run (f.save .standard).run v).1 with
  | error e =>
      have grows := grows_of_save_error down saved
      exact .failed grows (grows.isPresent rooted down absent)
  | ok _ =>
      obtain ⟨before, written⟩ := exists_write_of_save saved
      exact .saved (grows_save (w := v) rooted absent down)
        (FileSystem.isPresent_of_write written) (FileSystem.read_of_write written)

theorem loaders_agree (rooted : w.files.Rooted) (down : ".." ∉ f.path.steps) :
    let r := World.run f.loadOrCreate.run w
    (∀ c, r.1 = .ok c → f.Gives r.2.files (.ok c) ∧ c.check = .ok c ∧
      (w.files.isPresent f.path = true → r.2.files = w.files) ∧
      (w.files.isPresent f.path = false → c = .standard ∧
        r.2.files.read f.path = .ok (Text.utf8 Settings.standard.toText) ∧
        Grows (Saved (w.files.placeOf f.path) (Text.utf8 Settings.standard.toText)) w.files
          r.2.files)) ∧
    ∀ e, r.1 = .error e → Grows (Encloses (w.files.placeOf f.path)) w.files r.2.files ∧
      ∀ files, files = w.files ∨ files = r.2.files → files.isPresent f.path = true →
        f.Gives files (.error e) := by
  intro r
  cases present : w.files.isPresent f.path with
  | true =>
      have gives := gives_of_isPresent present
      obtain ⟨ended, same⟩ := gives.loadOrCreate w rfl
      change r.1 = _ at ended
      change r.2.files = _ at same
      rw [ended, same]
      refine ⟨fun c loaded => ⟨loaded ▸ gives, check_of_settingsIn loaded, fun _ => rfl, ?_⟩,
        fun e failed => ⟨Grows.refl _, ?_⟩⟩
      · intro absent
        cases absent
      · rintro files (rfl | rfl) -
        · exact failed ▸ gives
        · exact failed ▸ gives
  | false =>
      have created := created_of_absent rooted down present
      change f.Created w.files r.1 r.2.files at created
      generalize r.1 = ended, r.2.files = after at created
      cases created with
      | saved grows there kept =>
          have loaded : f.settingsIn after = .ok .standard :=
            (settingsIn_of_read kept).trans check_standard
          refine ⟨fun c same => ?_, fun e same => by cases same⟩
          obtain rfl := Except.ok.inj same
          refine ⟨loaded ▸ gives_of_isPresent there, check_standard, fun was => ?_,
            fun _ => ⟨rfl, kept, grows⟩⟩
          cases was
      | failed grows absent =>
          refine ⟨fun c same => ?_, fun e same => ⟨grows, ?_⟩⟩
          · cases same
          · rintro files (rfl | rfl) there
            · cases present.symm.trans there
            · cases absent.symm.trans there

theorem loaders_agree_of_bare :
    let w : World := ⟨FileSystem.bare ["d"], []⟩
    let f : SettingsFile := ⟨⟨"a/./b/c.toml"⟩⟩
    let g : SettingsFile := ⟨⟨"/d"⟩⟩
    f.Gives (World.run f.loadOrCreate.run w).2.files (.ok .standard) ∧
      ∃ e, g.Gives w.files (.error e) := by
  intro w f g
  have rooted : w.files.Rooted := by decide +kernel
  have down : ".." ∉ f.path.steps := by decide +kernel
  have down' : ".." ∉ g.path.steps := by decide +kernel
  have missing : w.files.isPresent f.path = false := by decide +kernel
  have there : w.files.isPresent g.path = true := by decide +kernel
  obtain ⟨c, created⟩ : ∃ c, (World.run f.loadOrCreate.run w).1 = .ok c :=
    FileSource.exists_eq_ok (by decide +kernel)
  obtain ⟨e, refused⟩ : ∃ e, (World.run g.loadOrCreate.run w).1 = .error e :=
    FileSource.exists_eq_error (by decide +kernel)
  constructor
  · obtain ⟨gives, -, -, new⟩ := (loaders_agree rooted down).1 c created
    obtain ⟨rfl, -⟩ := new missing
    exact gives
  · exact ⟨e, ((loaders_agree rooted down').2 e refused).2 w.files (.inl rfl) there⟩

end SettingsFile

end TrustRoles
