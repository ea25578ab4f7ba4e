import TrustRoles.Proofs.CommandLine.Footprint
import TrustRoles.Proofs.Files.FirstAnswer
import TrustRoles.Proofs.Inspection.History
import TrustRoles.Proofs.Report.Lines

namespace TrustRoles

namespace FileSystem

def Agrees (files other : FileSystem) (p : Path) : Prop :=
  (∃ ps, files.Expands p ps ∧ other.Expands p ps ∧ ∀ q ∈ ps, other.read q = files.read q) ∨
    ∃ e, files.Refuses p e ∧ other.Refuses p e

variable {files other : FileSystem} {p : Path}

theorem Agrees.pathsAt (h : files.Agrees other p) :
    FileSource.pathsAt other p = FileSource.pathsAt files p := by
  rcases h with ⟨ps, expands, expands', -⟩ | ⟨e, refuses, refuses'⟩
  · rw [pathsAt_of_expands expands, pathsAt_of_expands expands']
  · rw [refuses.pathsAt, refuses'.pathsAt]

theorem Agrees.read (h : files.Agrees other p) {ps : List Path}
    (expanded : FileSource.pathsAt files p = .ok ps) : ∀ q ∈ ps, other.read q = files.read q := by
  rcases h with ⟨ps', expands, -, same⟩ | ⟨e, refuses, -⟩
  · rw [pathsAt_of_expands expands] at expanded
    exact Except.ok.inj expanded ▸ same
  · cases refuses.pathsAt.symm.trans expanded

end FileSystem

namespace FileSource

variable {α β : Type} {files other : FileSystem}

theorem gather_congr {find find' : α → Except Fault (List β)} {as : List α}
    (same : ∀ a ∈ as, find a = find' a) : gather find as = gather find' as := by
  induction as with
  | nil => rfl
  | cons a as ih =>
      obtain ⟨here, later⟩ := List.forall_mem_cons.mp same
      rw [gather_cons, gather_cons, here, ih later]

theorem contents_congr {paths : List Path} (agree : ∀ p ∈ paths, files.Agrees other p) :
    contents other paths = contents files paths := by
  have expanded : gather (pathsAt other) paths = gather (pathsAt files) paths :=
    gather_congr fun p among => (agree p among).pathsAt
  rw [contents, contents, expanded]
  cases gathered : gather (pathsAt files) paths with
  | error f => rfl
  | ok found =>
      refine gather_congr fun q among => ?_
      obtain ⟨p, mem, ps, here, inside⟩ := mem_of_gather gathered q among
      exact congrArg (parse q) ((agree p mem).read here q inside)

end FileSource

namespace Session

variable {files other : FileSystem} {paths : List Path}

def reportOn (files : FileSystem) (paths : List Path) : Except Fault Report :=
  ((start files).inspectPaths paths).1

theorem reportOn_nil (files : FileSystem) :
    reportOn files [] = .error (.configuration "No certificate files given") :=
  rfl

theorem reportOn_eq (given : paths ≠ []) : reportOn files paths =
    Inspection.reply ((FileSource.contents files paths).map (Member.number 0)) := by
  obtain ⟨r, m', kept, x, ran, -, replies⟩ := (start files).inspectPathsNear_backed 0 given
  rw [reportOn, inspectPaths, ran]
  exact replies.reply.trans (congrArg Inspection.reply (FileSource.onDisk_eq _ _))

theorem reportOn_congr (agree : ∀ p ∈ paths, files.Agrees other p) :
    reportOn other paths = reportOn files paths := by
  by_cases given : paths = []
  · rw [given, reportOn_nil, reportOn_nil]
  · rw [reportOn_eq given, reportOn_eq given, FileSource.contents_congr agree]

end Session

namespace CommandLine

open Session (reportOn)
open World (Reads)

theorem reads_report (paths : List Path) : Reads (report paths) fun files =>
    reportOn files paths := by
  intro w
  refine ⟨?_, keeps_report paths w⟩
  have ran := World.run_lift_bind (Inspection.inspectPaths (fun _ => false) 0 0 paths .empty)
    (fun r => liftExcept r.1) ⟨w.files, []⟩
  calc (World.run (report paths).run w).1
      = (World.run (report paths).run ⟨w.files, []⟩).1 :=
        (World.run_congr (report paths).run (w := w) (v := ⟨w.files, []⟩) rfl).1
    _ = _ := congrArg Prod.fst ran
    _ = reportOn w.files paths := (Reads.lifted _ _).1

structure Request where
  paths : List Path
  format : ReportFormat
  listed : Bool

namespace Request

def of (s : Settings) (paths : List Path) (format : Option ReportFormat) (listed : Bool) :
    Request where
  paths := match paths with
    | [] => s.certificatePaths
    | p :: ps => p :: ps
  format := match format with
    | none => s.format
    | some f => f
  listed := listed || s.listed

def answer (q : Request) (files : FileSystem) : Except Fault String :=
  (reportOn files q.paths).map fun r => r.render q.listed q.format

variable {q q' : Request} {files other : FileSystem}

theorem render_congr (r : Report) (format : q'.format = q.format)
    (listed : q.format = .text → q'.listed = q.listed) :
    r.render q'.listed q'.format = r.render q.listed q.format := by
  rw [format]
  cases asked : q.format with
  | text => rw [listed asked]
  | json => rfl

theorem answer_congr (paths : q'.paths = q.paths) (format : q'.format = q.format)
    (listed : q.format = .text → q'.listed = q.listed)
    (agree : ∀ p ∈ q.paths, files.Agrees other p) : q'.answer other = q.answer files := by
  rw [answer, answer, paths, Session.reportOn_congr agree]
  cases reportOn files q.paths with
  | error f => rfl
  | ok r => exact congrArg Except.ok (render_congr r format listed)

end Request

theorem reads_inspect (s : Settings) (paths : List Path) (format : Option ReportFormat)
    (listed : Bool) :
    Reads (inspect s paths format listed) (Request.of s paths format listed).answer := by
  have same : (Request.of s paths format listed).paths =
      if paths.isEmpty then s.certificatePaths else paths := by
    cases paths <;> rfl
  have chosen : (Request.of s paths format listed).format = format.getD s.format := by
    cases format <;> rfl
  have reads := (reads_report (if paths.isEmpty then s.certificatePaths else paths)).bind fun r =>
    Reads.pure (r.render (listed || s.listed) (format.getD s.format))
  refine reads.of_eq fun files => ?_
  rw [Request.answer, same, chosen]
  cases reportOn files (if paths.isEmpty then s.certificatePaths else paths) <;> rfl

def Outcome.ofResult : Except Fault String → Outcome
  | .ok output => .done output
  | .error f => .failed f

theorem run_ofTask {t : DiskTask String} {find : FileSystem → Except Fault String}
    (reads : Reads t find) (w : World) :
    (World.run (Outcome.ofTask t) w).1 = .ofResult (find w.files) := by
  rw [Outcome.ofTask, World.run_bind, (reads w).1]
  cases find w.files <;> rfl

variable {e : Environment} {args : List String} {w : World} {given : Option Path}
  {paths : List Path} {format : Option ReportFormat} {listed verbose : Bool} {s : Settings}

theorem run_of_loaded
    (asked : Invocation.ofArguments args = .ok ⟨given, .inspect paths format listed verbose⟩)
    (loaded : (settingsFile e given).settingsOrStandardIn w.files = .ok s) :
    ∃ level, (World.run (run e args) w).1 =
      (Outcome.ofResult ((Request.of s paths format listed).answer w.files)).loggedAt level := by
  refine ⟨if verbose then "debug" else s.logLevel, ?_⟩
  obtain ⟨found, files⟩ := (settingsFile e given).reads_loadOrDefault w
  rw [run, asked]
  dsimp only
  rw [carryOut, World.run_bind, found, loaded]
  dsimp only
  rw [World.run_bind, ← files, ← run_ofTask (reads_inspect s paths format listed)]
  rfl

theorem run_of_unloadable {fault : Fault}
    (asked : Invocation.ofArguments args = .ok ⟨given, .inspect paths format listed verbose⟩)
    (failed : (settingsFile e given).settingsOrStandardIn w.files = .error fault) :
    (World.run (run e args) w).1 = .failed fault := by
  rw [run, asked]
  dsimp only
  rw [carryOut, World.run_bind, ((settingsFile e given).reads_loadOrDefault w).1, failed]
  rfl

/-- The files are trees as in `FileSystem`: no links, names that are text. -/
theorem outcome_by_request
    (asked : Invocation.ofArguments args = .ok ⟨given, .inspect paths format listed verbose⟩) :
    let o := (World.run (run e args) w).1
    (∀ s, (settingsFile e given).settingsOrStandardIn w.files = .ok s →
      let q := Request.of s paths format listed
      (∀ r, reportOn w.files q.paths = .ok r → o.status = 0 ∧
        (q.format = .text → o.output = r.text q.listed) ∧
        (q.format = .json → o.output = r.toJson.pretty ++ "\n")) ∧
      (∀ f, reportOn w.files q.paths = .error f → o.status = 1 ∧ o.output = "") ∧
      (q.paths = [] → o.status = 1 ∧ o.output = "") ∧
      ∀ e' args' w' given' paths' format' listed' verbose' s',
        Invocation.ofArguments args' = .ok ⟨given', .inspect paths' format' listed' verbose'⟩ →
        (settingsFile e' given').settingsOrStandardIn w'.files = .ok s' →
        let q' := Request.of s' paths' format' listed'
        q'.paths = q.paths → q'.format = q.format → (q.format = .text → q'.listed = q.listed) →
        (∀ p ∈ q.paths, w.files.Agrees w'.files p) →
          (World.run (run e' args') w').1.status = o.status ∧
          (World.run (run e' args') w').1.output = o.output) ∧
    (w.files.isPresent (settingsFile e given).path = true →
      (settingsFile e given).Unusable w.files → o.status = 1 ∧ o.output = "") := by
  intro o
  refine ⟨fun s loaded => ?_, fun present unusable => ?_⟩
  · intro q
    obtain ⟨level, ended⟩ := run_of_loaded asked loaded
    change o = (Outcome.ofResult (q.answer w.files)).loggedAt level at ended
    have failing {f : Fault} (failed : reportOn w.files q.paths = .error f) :
        o.status = 1 ∧ o.output = "" := by
      rw [ended, Request.answer, failed]
      exact ⟨rfl, rfl⟩
    refine ⟨fun r reported => ?_, fun f failed => failing failed, fun nowhere => ?_, ?_⟩
    · rw [ended, Request.answer, reported]
      refine ⟨rfl, fun text => ?_, fun json => ?_⟩
      · change r.render q.listed q.format = _
        rw [text]
        rfl
      · change r.render q.listed q.format = _
        rw [json]
        rfl
    · exact failing (nowhere ▸ Session.reportOn_nil w.files)
    · intro e' args' w' given' paths' format' listed' verbose' s' asked' loaded' q' paths format
        listed agree
      obtain ⟨level', ended'⟩ := run_of_loaded asked' loaded'
      change _ = (Outcome.ofResult (q'.answer w'.files)).loggedAt level' at ended'
      rw [ended', ended, Request.answer_congr paths format listed agree]
      exact ⟨rfl, rfl⟩
  · obtain ⟨fault, failed⟩ := SettingsFile.unusable_iff.mp unusable
    have unloadable : (settingsFile e given).settingsOrStandardIn w.files = .error fault := by
      rw [SettingsFile.settingsOrStandardIn, present, if_pos rfl, failed]
    have ended : o = .failed fault := run_of_unloadable asked unloadable
    rw [ended]
    exact ⟨rfl, rfl⟩

def lone : Settings := ⟨[⟨"a.der"⟩], .json, "trace", false⟩

def bareWorld : World :=
  ⟨(FileSystem.bare ["d"]).put ["d", "a.der"] (.file (Session.selfSigned "Root")), []⟩

def setWorld : World :=
  ⟨bareWorld.files.put ["d", "c.toml"] (.file (Text.utf8 lone.toText)), []⟩

def bySettings : List String := ["--config", "c.toml", "inspect", "--list"]

def byArguments : List String := ["inspect", "a.der", "-f", "json", "-v"]

theorem settings_of_setWorld :
    (SettingsFile.mk ⟨"c.toml"⟩).settingsOrStandardIn setWorld.files = .ok lone := by
  have present : setWorld.files.isPresent ⟨"c.toml"⟩ = true := by decide +kernel
  have kept : setWorld.files.read ⟨"c.toml"⟩ = .ok (Text.utf8 lone.toText) := by rfl
  have valid : lone.check = .ok lone := Settings.check_eq_ok_iff.mpr ⟨by decide +kernel, rfl⟩
  rw [SettingsFile.settingsOrStandardIn, present, if_pos rfl]
  exact (SettingsFile.settingsIn_of_read kept).trans valid

theorem outcome_by_request_of_lone :
    let r := World.run (run ⟨none, none⟩ bySettings) setWorld
    let r' := World.run (run ⟨none, none⟩ byArguments) bareWorld
    r.1.status = 0 ∧ r'.1.status = 0 ∧ r'.1.output = r.1.output := by
  have asked : Invocation.ofArguments bySettings =
      .ok ⟨some ⟨"c.toml"⟩, .inspect [] none true false⟩ := by rfl
  have asked' : Invocation.ofArguments byArguments =
      .ok ⟨none, .inspect [⟨"a.der"⟩] (some .json) false true⟩ := by rfl
  have absent : (settingsFile ⟨none, none⟩ none).settingsOrStandardIn bareWorld.files =
      .ok .standard := by
    have missing : bareWorld.files.isPresent (settingsFile ⟨none, none⟩ none).path = false := by
      decide +kernel
    rw [SettingsFile.settingsOrStandardIn, missing, if_neg Bool.false_ne_true]
  have agree : ∀ p ∈ lone.certificatePaths, setWorld.files.Agrees bareWorld.files p := by
    intro p among
    obtain rfl := List.mem_singleton.mp among
    refine .inl ⟨[⟨"a.der"⟩], .other (by decide +kernel), .other (by decide +kernel), ?_⟩
    intro q among
    obtain rfl := List.mem_singleton.mp among
    rfl
  obtain ⟨r, reported⟩ : ∃ r, reportOn setWorld.files lone.certificatePaths = .ok r :=
    FileSource.exists_eq_ok (by decide +kernel)
  obtain ⟨done, -, -, alike⟩ := (outcome_by_request asked).1 lone settings_of_setWorld
  obtain ⟨status, output⟩ :=
    alike _ _ _ _ _ _ _ _ _ asked' absent rfl rfl (fun text => by cases text) agree
  have zero := (done r reported).1
  exact ⟨zero, status.trans zero, output⟩

end CommandLine

end TrustRoles
