import TrustRoles.CommandLine
import TrustRoles.Proofs.Files.Snapshot
import TrustRoles.Proofs.Settings.Loaders

namespace TrustRoles

variable {α β : Type}

namespace World

def Keeps (p : DiskProgram α) : Prop :=
  ∀ w, (run p w).2.files = w.files

namespace Keeps

theorem pure (a : α) : Keeps (Pure.pure a) :=
  fun _ => rfl

theorem note (n : Notice) : Keeps (DiskProgram.note n) :=
  fun _ => rfl

theorem bind {p : DiskProgram α} {next : α → DiskProgram β} (first : Keeps p)
    (rest : ∀ a, Keeps (next a)) : Keeps (p >>= next) := by
  intro w
  rw [run_bind]
  exact (rest _ _).trans (first w)

theorem files_bind {p : DiskProgram α} {next : α → DiskProgram β} (rest : ∀ a, Keeps (next a))
    (w : World) : (run (p >>= next) w).2.files = (run p w).2.files := by
  rw [run_bind]
  exact rest _ _

theorem of_reads {task : DiskTask α} {find : FileSystem → Except Fault α} (h : Reads task find) :
    Keeps task.run :=
  fun w => (h w).2

theorem task_bind {task : DiskTask α} {next : α → DiskTask β} (first : Keeps task.run)
    (rest : ∀ a, Keeps (next a).run) : Keeps (task >>= next).run := by
  refine Keeps.bind first fun outcome => ?_
  cases outcome with
  | ok a => exact rest a
  | error f => exact Keeps.pure _

end Keeps

end World

open FileSystem (Grows Saved)
open World (Keeps Reads)

namespace Source

theorem keeps_answer (c : Criterion) (source : Source) : Keeps (source.answer c) := by
  cases source with
  | listing l => exact Keeps.pure _
  | scripted s => exact Keeps.pure _
  | files s =>
      have read : Keeps (s.answer c) := fun w => Shelf.files_query ⟨s, w⟩ c
      exact read.bind fun r => Keeps.pure _

theorem keeps_carryOut (i : Consultation α) (source : Source) : Keeps (carryOut i source) := by
  induction i generalizing source with
  | done a => exact Keeps.pure _
  | call c next ih =>
      cases c with
      | ask c => exact (source.keeps_answer c).bind fun r => ih r.1 r.2
      | note n => exact (Keeps.note n).bind fun _ => ih () source

end Source

theorem Inspection.keeps_inspectPaths (alive : Nat → Bool) (place number : Nat) (paths : List Path)
    (memo : Memo) : Keeps (inspectPaths alive place number paths memo) := by
  rw [inspectPaths]
  split
  · exact Keeps.pure _
  · refine (Keeps.note _).bind fun _ => ?_
    exact (Source.keeps_carryOut _ _).bind fun _ => Keeps.pure _

namespace CommandLine

theorem keeps_report (paths : List Path) : Keeps (report paths).run := by
  refine Keeps.task_bind ?_ fun r => ?_
  · exact (Inspection.keeps_inspectPaths _ 0 0 paths .empty).bind fun _ => Keeps.pure _
  · exact Keeps.of_reads (Reads.lifted r.1)

theorem keeps_inspect (s : Settings) (paths : List Path) (format : Option ReportFormat)
    (listed : Bool) : Keeps (inspect s paths format listed).run :=
  Keeps.task_bind (keeps_report _) fun _ => Keeps.pure _

theorem keeps_show (f : SettingsFile) : Keeps (showSettings f).run := by
  refine Keeps.task_bind (Keeps.task_bind (Keeps.of_reads (Reads.isPresent f.path)) ?_) ?_
  · intro present
    cases present with
    | false => exact Keeps.pure _
    | true =>
        refine (Keeps.of_reads f.reads_load).bind fun outcome => ?_
        cases outcome <;> exact Keeps.pure _
  · intro found
    cases found <;> exact Keeps.pure _

theorem files_ofTask (t : DiskTask String) (w : World) :
    (World.run (Outcome.ofTask t) w).2.files = (World.run t.run w).2.files := by
  refine Keeps.files_bind (fun outcome => ?_) w
  cases outcome <;> exact Keeps.pure _

theorem keeps_ofTask {t : DiskTask String} (h : Keeps t.run) : Keeps (Outcome.ofTask t) :=
  fun w => (files_ofTask t w).trans (h w)

inductive Leaves (f : SettingsFile) (fs : FileSystem) : Command → FileSystem → Prop
  | alone (c : Command) : Leaves f fs c fs
  | saved {after : FileSystem}
      (grows : Grows (Saved (fs.placeOf f.path) (Text.utf8 Settings.standard.toText)) fs after) :
      Leaves f fs .createSettings after
  | exported {format : SettingsFormat} {p : Path} {text : String} {made : FileSystem}
      (written : fs.write p (Text.utf8 text) = .ok made) :
      Leaves f fs (.exportSettings format (some p)) made

variable {f : SettingsFile} {w : World}

theorem files_createSettings (f : SettingsFile) (w : World) :
    (World.run (carryOut f .createSettings) w).2.files =
      (World.run f.loadOrCreate.run w).2.files := by
  refine (files_ofTask (createSettings f) w).trans (Keeps.files_bind (fun outcome => ?_) w)
  cases outcome <;> exact Keeps.pure _

theorem leaves_createSettings (rooted : w.files.Rooted) (down : ".." ∉ f.path.steps) :
    Leaves f w.files .createSettings (World.run (carryOut f .createSettings) w).2.files := by
  rw [files_createSettings, SettingsFile.run_loadOrCreate]
  cases present : w.files.isPresent f.path with
  | true =>
      rw [if_pos rfl, (f.reads_load w).2]
      exact .alone _
  | false =>
      rw [if_neg Bool.false_ne_true, SettingsFile.run_create]
      let v : World := ⟨w.files, w.notices ++ [.settingsCreating f.path]⟩
      exact .saved (SettingsFile.grows_save (w := v) rooted present down)

theorem leaves_exportSettings (f : SettingsFile) (w : World) (format : SettingsFormat)
    (output : Option Path) : Leaves f w.files (.exportSettings format output)
      (World.run (carryOut f (.exportSettings format output)) w).2.files := by
  have ends : (World.run (carryOut f (.exportSettings format output)) w).2.files =
      (World.run (exportSettings f format output).run w).2.files :=
    files_ofTask (exportSettings f format output) w
  have unchanged := (f.reads_render format w).2
  rw [ends, exportSettings, World.run_task_bind]
  cases (World.run (f.render format).run w).1 with
  | error e =>
      change Leaves f w.files _ (World.run (f.render format).run w).2.files
      rw [unchanged]
      exact .alone _
  | ok text =>
      generalize (World.run (f.render format).run w).2 = v at unchanged
      cases output with
      | none =>
          change Leaves f w.files _ v.files
          rw [unchanged]
          exact .alone _
      | some p =>
          change Leaves f w.files _ (World.run (DiskProgram.write p (Text.utf8 text) >>= fun _ => _ :
            DiskTask String).run v).2.files
          cases written : v.files.write p (Text.utf8 text) with
          | error e =>
              rw [World.run_write_bind_error written]
              change Leaves f w.files _ v.files
              rw [unchanged]
              exact .alone _
          | ok made =>
              rw [World.run_write_bind_ok written]
              rw [unchanged] at written
              exact .exported written

theorem leaves_carryOut (rooted : w.files.Rooted) (c : Command)
    (down : c = .createSettings → ".." ∉ f.path.steps) :
    Leaves f w.files c (World.run (carryOut f c) w).2.files := by
  have of_keeps (h : Keeps (carryOut f c)) :
      Leaves f w.files c (World.run (carryOut f c) w).2.files := by
    rw [h w]
    exact .alone c
  cases c with
  | inspect paths format listed verbose =>
      refine of_keeps ((Keeps.of_reads f.reads_loadOrDefault).bind fun outcome => ?_)
      cases outcome with
      | error e => exact Keeps.pure _
      | ok s => exact (keeps_ofTask (keeps_inspect s paths format listed)).bind fun _ => Keeps.pure _
  | showSettings => exact of_keeps (keeps_ofTask (keeps_show f))
  | createSettings => exact leaves_createSettings rooted (down rfl)
  | showPath => exact .alone _
  | exportSettings format output => exact leaves_exportSettings f w format output

def Outcome.Quiet (o : Outcome) : Prop :=
  o.status ≠ 0 → o.output = ""

theorem quiet_ofTask (t : DiskTask String) (w : World) :
    (World.run (Outcome.ofTask t) w).1.Quiet := by
  rw [Outcome.ofTask, World.run_bind]
  cases (World.run t.run w).1 with
  | ok output => exact fun failed => absurd rfl failed
  | error f => exact fun _ => rfl

theorem quiet_carryOut (f : SettingsFile) (c : Command) (w : World) :
    (World.run (carryOut f c) w).1.Quiet := by
  cases c with
  | inspect paths format listed verbose =>
      rw [carryOut, World.run_bind]
      cases (World.run f.loadOrDefault.run w).1 with
      | error e => exact fun _ => rfl
      | ok s =>
          dsimp only
          rw [World.run_bind]
          exact quiet_ofTask (inspect s paths format listed) _
  | showSettings => exact quiet_ofTask (showSettings f) w
  | createSettings => exact quiet_ofTask (createSettings f) w
  | showPath => exact fun failed => absurd rfl failed
  | exportSettings format output => exact quiet_ofTask (exportSettings f format output) w

theorem quiet_stopped (s : Stop) : (stopped s).Quiet := by
  cases s with
  | misuse m => exact fun _ => rfl
  | help => exact fun failed => absurd rfl failed
  | version => exact fun failed => absurd rfl failed

namespace Leaves

variable {fs after : FileSystem} {c : Command} {loc : Location} {n : Node}

theorem rooted (h : Leaves f fs c after) (rooted : fs.Rooted) : after.Rooted := by
  cases h with
  | alone => exact rooted
  | saved grows => exact grows.rooted rooted
  | exported written => exact (FileSystem.node?_of_write written).1 rooted

theorem kept (h : Leaves f fs c after) (filed : fs.node? loc = some n) :
    after.node? loc = some n ∨ ∃ format p, c = .exportSettings format (some p) ∧
      n ≠ .directory ∧ fs.find p = .ok (loc, n) := by
  cases h with
  | alone => exact .inl filed
  | saved grows => exact .inl (grows.kept loc n filed)
  | exported written =>
      refine ((FileSystem.node?_of_write written).2.1 loc n filed).imp_right fun named => ?_
      exact ⟨_, _, rfl, named⟩

theorem added (h : Leaves f fs c after) (missing : fs.node? loc = none)
    (filed : after.node? loc = some n) :
    (c = .createSettings ∧
      Saved (fs.placeOf f.path) (Text.utf8 Settings.standard.toText) loc n) ∨
    ∃ format p, c = .exportSettings format (some p) ∧ after.find p = .ok (loc, n) := by
  cases h with
  | alone => cases missing.symm.trans filed
  | saved grows => exact .inl ⟨rfl, grows.added loc n missing filed⟩
  | exported written =>
      exact .inr ⟨_, _, rfl, (FileSystem.node?_of_write written).2.2 loc n missing filed⟩

theorem same (h : Leaves f fs c after) (notInit : c ≠ .createSettings)
    (notExport : ∀ format p, c ≠ .exportSettings format (some p)) : after = fs := by
  cases h with
  | alone => rfl
  | saved => exact absurd rfl notInit
  | exported => exact absurd rfl (notExport _ _)

end Leaves

theorem footprint (e : Environment) (args : List String) (w : World) (rooted : w.files.Rooted)
    (down : ∀ s, Invocation.ofArguments args = .ok ⟨s, .createSettings⟩ →
      ".." ∉ (settingsFile e s).path.steps) :
    let r := World.run (run e args) w
    (r.1.status ≠ 0 → r.1.output = "") ∧ r.2.files.Rooted ∧
    (∀ loc n, w.files.node? loc = some n → r.2.files.node? loc = some n ∨
      ∃ s format p, Invocation.ofArguments args = .ok ⟨s, .exportSettings format (some p)⟩ ∧
        n ≠ .directory ∧ w.files.find p = .ok (loc, n)) ∧
    (∀ loc n, w.files.node? loc = none → r.2.files.node? loc = some n →
      (∃ s, Invocation.ofArguments args = .ok ⟨s, .createSettings⟩ ∧
        Saved (w.files.placeOf (settingsFile e s).path) (Text.utf8 Settings.standard.toText)
          loc n) ∨
      ∃ s format p, Invocation.ofArguments args = .ok ⟨s, .exportSettings format (some p)⟩ ∧
        r.2.files.find p = .ok (loc, n)) ∧
    ((∀ s, Invocation.ofArguments args ≠ .ok ⟨s, .createSettings⟩) →
      (∀ s format p, Invocation.ofArguments args ≠ .ok ⟨s, .exportSettings format (some p)⟩) →
      r.2.files = w.files) := by
  intro r
  cases asked : Invocation.ofArguments args with
  | error stop =>
      have ran : r = (stopped stop, w) := by
        change World.run (run e args) w = _
        rw [run, asked]
        rfl
      rw [ran]
      refine ⟨quiet_stopped stop, rooted, fun loc n filed => .inl filed,
        fun loc n missing filed => ?_, fun _ _ => rfl⟩
      cases missing.symm.trans filed
  | ok i =>
      obtain ⟨s, c⟩ := i
      have ran : r = World.run (carryOut (settingsFile e s) c) w := by
        change World.run (run e args) w = _
        rw [run, asked]
      have leaves : Leaves (settingsFile e s) w.files c r.2.files := by
        rw [ran]
        refine leaves_carryOut rooted c fun init => down s ?_
        rw [asked, init]
      refine ⟨ran ▸ quiet_carryOut _ c w, leaves.rooted rooted, fun loc n filed => ?_,
        fun loc n missing filed => ?_, fun notInit notExport => ?_⟩
      · refine (leaves.kept filed).imp_right ?_
        rintro ⟨format, p, rfl, named⟩
        exact ⟨s, format, p, rfl, named⟩
      · rcases leaves.added missing filed with ⟨rfl, saved⟩ | ⟨format, p, rfl, named⟩
        · exact .inl ⟨s, rfl, saved⟩
        · exact .inr ⟨s, format, p, rfl, named⟩
      · exact leaves.same (fun init => notInit s (by rw [init]))
          fun format p named => notExport s format p (by rw [named])

def initLine : List String :=
  ["--config", "a/./b/c.toml", "config", "init"]

theorem ofArguments_initLine :
    Invocation.ofArguments initLine = .ok ⟨some ⟨"a/./b/c.toml"⟩, .createSettings⟩ := by
  rfl

def oldWorld : World :=
  ⟨(FileSystem.bare ["d"]).put ["d", "old"] (.file [1]), []⟩

theorem footprint_of_init :
    let r := World.run (run ⟨none, none⟩ initLine) oldWorld
    r.1.status = 0 ∧ r.2.files.Rooted ∧ r.2.files.node? ["d", "old"] = some (.file [1]) ∧
      ∀ loc n, oldWorld.files.node? loc = none → r.2.files.node? loc = some n →
        Saved ["d", "a", "b", "c.toml"] (Text.utf8 Settings.standard.toText) loc n := by
  have target : oldWorld.files.placeOf ⟨"a/./b/c.toml"⟩ = ["d", "a", "b", "c.toml"] := by
    decide +kernel
  have tree : oldWorld.files.Rooted := by decide +kernel
  have down : ∀ s, Invocation.ofArguments initLine = .ok ⟨s, .createSettings⟩ →
      ".." ∉ (settingsFile ⟨none, none⟩ s).path.steps := by
    intro s asked
    rw [ofArguments_initLine] at asked
    cases asked
    decide +kernel
  have done : (World.run (run ⟨none, none⟩ initLine) oldWorld).1.status = 0 := by decide +kernel
  have old : oldWorld.files.node? ["d", "old"] = some (.file [1]) := by decide +kernel
  obtain ⟨-, after, kept, added, -⟩ := footprint ⟨none, none⟩ initLine oldWorld tree down
  refine ⟨done, after, ?_, fun loc n missing filed => ?_⟩
  · rcases kept _ _ old with same | ⟨s, format, p, exported, -⟩
    · exact same
    · rw [ofArguments_initLine] at exported
      cases exported
  · rcases added loc n missing filed with ⟨s, asked, saved⟩ | ⟨s, format, p, exported, -⟩
    · rw [ofArguments_initLine] at asked
      cases asked
      rwa [← target]
    · rw [ofArguments_initLine] at exported
      cases exported

end CommandLine

end TrustRoles
