import TrustRoles.Collection.Files

namespace TrustRoles

variable {α β : Type}

namespace World

theorem run_task_bind (task : DiskTask α) (next : α → DiskTask β) (w : World) :
    run (task >>= next).run w =
      run (ExceptT.bindCont next (run task.run w).1) (run task.run w).2 :=
  run_bind task.run (ExceptT.bindCont next) w

theorem run_lift_bind (p : DiskProgram α) (next : α → DiskTask β) (w : World) :
    run ((liftM p : DiskTask α) >>= next).run w = run (next (run p w).1).run (run p w).2 := by
  have lifted : run (liftM p : DiskTask α).run w = (.ok (run p w).1, (run p w).2) :=
    run_bind p (fun a => (pure (.ok a) : DiskProgram (Except Fault α))) w
  rw [run_task_bind, lifted]
  rfl

theorem run_bind_eq_ok {task : DiskTask α} {next : α → DiskTask β} {b : β} {w : World}
    (h : (run (task >>= next).run w).1 = .ok b) :
    ∃ a, (run task.run w).1 = .ok a ∧
      run (task >>= next).run w = run (next a).run (run task.run w).2 := by
  rw [run_task_bind] at h ⊢
  cases outcome : (run task.run w).1 with
  | error f =>
      rw [outcome] at h
      cases h
  | ok a => exact ⟨a, rfl, rfl⟩

section Write

variable {w : World} {p : Path} {content : List UInt8} {next : Except FileError Unit → DiskTask β}

theorem run_write_bind_ok {made : FileSystem} (written : w.files.write p content = .ok made) :
    run ((liftM (DiskProgram.write p content) : DiskTask _) >>= next).run w =
      run (next (.ok ())).run { w with files := made } := by
  have served : run (DiskProgram.write p content) w = (.ok (), { w with files := made }) := by
    change w.serve (.write p content) = _
    rw [serve, written]
    rfl
  rw [run_lift_bind, served]

theorem run_write_bind_error {e : FileError} (refused : w.files.write p content = .error e) :
    run ((liftM (DiskProgram.write p content) : DiskTask _) >>= next).run w =
      run (next (.error e)).run w := by
  have served : run (DiskProgram.write p content) w = (.error e, w) := by
    change w.serve (.write p content) = _
    rw [serve, refused]
    rfl
  rw [run_lift_bind, served]

end Write

def Reads (task : DiskTask α) (find : FileSystem → Except Fault α) : Prop :=
  ∀ w, (run task.run w).1 = find w.files ∧ (run task.run w).2.files = w.files

namespace Reads

theorem pure (a : α) : Reads (Pure.pure a) fun _ => .ok a :=
  fun _ => ⟨rfl, rfl⟩

theorem note (n : Notice) : Reads (DiskProgram.note n : DiskTask Unit) fun _ => .ok () :=
  fun _ => ⟨rfl, rfl⟩

theorem found (outcome : Except Fault α) : Reads (outcome : DiskTask α) fun _ => outcome :=
  fun _ => ⟨rfl, rfl⟩

theorem lifted (outcome : Except Fault α) :
    Reads (liftExcept outcome : DiskTask α) fun _ => outcome := by
  intro w
  cases outcome <;> exact ⟨rfl, rfl⟩

theorem read (p : Path) : Reads (DiskProgram.read p) fun files => .ok (files.read p) :=
  fun _ => ⟨rfl, rfl⟩

theorem isDirectory (p : Path) :
    Reads (DiskProgram.isDirectory p) fun files => .ok (files.isDirectory p) :=
  fun _ => ⟨rfl, rfl⟩

theorem isPresent (p : Path) :
    Reads (DiskProgram.isPresent p) fun files => .ok (files.isPresent p) :=
  fun _ => ⟨rfl, rfl⟩

theorem fileNames (p : Path) :
    Reads (DiskProgram.fileNames p) fun files => .ok (files.fileNames p) :=
  fun _ => ⟨rfl, rfl⟩

theorem bind {task : DiskTask α} {next : α → DiskTask β} {find : FileSystem → Except Fault α}
    {findNext : α → FileSystem → Except Fault β} (first : Reads task find)
    (rest : ∀ a, Reads (next a) (findNext a)) :
    Reads (task >>= next) fun files => (find files).bind fun a => findNext a files := by
  intro w
  obtain ⟨found, files⟩ := first w
  rw [run_task_bind, found]
  dsimp only
  cases find w.files with
  | error f => exact ⟨rfl, files⟩
  | ok a =>
      obtain ⟨later, same⟩ := rest a (run task.run w).2
      exact ⟨later.trans (congrArg (findNext a) files), same.trans files⟩

theorem map {task : DiskTask α} {find : FileSystem → Except Fault α} (g : α → β)
    (reads : Reads task find) : Reads (g <$> task) fun files => (find files).map g := by
  intro w
  obtain ⟨found, files⟩ := reads w
  have ran : run (g <$> task).run w = ((run task.run w).1.map g, (run task.run w).2) := by
    refine (run_bind _ _ w).trans ?_
    unfold ExceptT.run
    cases (run task w).1 <;> rfl
  rw [ran, found]
  exact ⟨rfl, files⟩

theorem of_eq {task : DiskTask α} {find other : FileSystem → Except Fault α}
    (reads : Reads task find) (same : ∀ files, find files = other files) : Reads task other := by
  intro w
  rw [← same]
  exact reads w

end Reads

end World

namespace FileSource

open World (Reads)

def gather (find : α → Except Fault (List β)) : List α → Except Fault (List β)
  | [] => .ok []
  | a :: rest => (find a).bind fun here => (gather find rest).map fun there => here ++ there

section

variable {ε : Type} {x : Except ε α} {b : β}

theorem bind_eq_ok {next : α → Except ε β} :
    x.bind next = .ok b ↔ ∃ a, x = .ok a ∧ next a = .ok b := by
  cases x <;> simp [Except.bind]

theorem map_eq_ok {f : α → β} : x.map f = .ok b ↔ ∃ a, x = .ok a ∧ f a = b := by
  cases x <;> simp [Except.map]

theorem exists_eq_ok (h : x.isOk = true) : ∃ a, x = .ok a := by
  cases x with
  | error e => cases h
  | ok a => exact ⟨a, rfl⟩

theorem exists_eq_error (h : x.isOk = false) : ∃ e, x = .error e := by
  cases x with
  | error e => exact ⟨e, rfl⟩
  | ok a => cases h

end

theorem mem_of_gather {find : α → Except Fault (List β)} {as : List α} {bs : List β}
    (h : gather find as = .ok bs) : ∀ b ∈ bs, ∃ a ∈ as, ∃ found, find a = .ok found ∧ b ∈ found := by
  induction as generalizing bs with
  | nil =>
      cases h
      exact List.forall_mem_nil _
  | cons a as ih =>
      obtain ⟨found, here, rest⟩ := bind_eq_ok.mp h
      obtain ⟨others, later, rfl⟩ := map_eq_ok.mp rest
      intro b among
      rcases List.mem_append.mp among with first | among
      · exact ⟨a, List.mem_cons_self, found, here, first⟩
      · obtain ⟨a', mem, found', read, among⟩ := ih later b among
        exact ⟨a', List.mem_cons_of_mem a mem, found', read, among⟩

def pathsAt (files : FileSystem) (p : Path) : Except Fault (List Path) :=
  if files.isDirectory p then inside p (files.fileNames p) else .ok [p]

def profilesAt (files : FileSystem) (p : Path) : Except Fault (List Profile) :=
  parse p (files.read p)

def onDisk (s : FileSource) (files : FileSystem) : Except Fault (List Member) :=
  (gather (pathsAt files) s.paths).bind fun paths =>
    (gather (profilesAt files) paths).map (Member.number s.number)

theorem reads_expand (p : Path) : Reads (expand p) fun files => pathsAt files p := by
  have choose : ∀ directory : Bool, Reads
      (if directory then do inside p (← DiskProgram.fileNames p) else pure [p])
      fun files => if directory then inside p (files.fileNames p) else .ok [p] := by
    intro directory
    cases directory with
    | false => exact Reads.pure [p]
    | true => exact (Reads.fileNames p).bind fun names => Reads.found (inside p names)
  exact (Reads.isDirectory p).bind choose

theorem reads_expandAll (ps : List Path) :
    Reads (expandAll ps) fun files => gather (pathsAt files) ps := by
  induction ps with
  | nil => exact Reads.pure []
  | cons p ps ih =>
      have reads := (reads_expand p).bind fun here => ih.bind fun there =>
        Reads.pure (here ++ there)
      refine reads.of_eq fun files => ?_
      rfl

theorem reads_load (p : Path) : Reads (load p) fun files => profilesAt files p := by
  have reads := (Reads.read p).bind fun bytes => (Reads.found (parse p bytes)).bind fun profiles =>
    (Reads.note (.fileLoaded profiles.length p)).bind fun _ => Reads.pure profiles
  refine reads.of_eq fun files => ?_
  change (parse p (files.read p)).bind Except.ok = parse p (files.read p)
  cases parse p (files.read p) with
  | error f => rfl
  | ok profiles => rfl

theorem reads_loadAll (ps : List Path) :
    Reads (loadAll ps) fun files => gather (profilesAt files) ps := by
  induction ps with
  | nil => exact Reads.pure []
  | cons p ps ih =>
      have reads := (reads_load p).bind fun here => ih.bind fun there =>
        Reads.pure (here ++ there)
      refine reads.of_eq fun files => ?_
      rfl

theorem reads_readAll (s : FileSource) : Reads s.readAll s.onDisk := by
  have reads := (reads_expandAll s.paths).bind fun paths => (reads_loadAll paths).bind fun profiles =>
    (Reads.note (.filesLoaded profiles.length s.paths.length)).bind fun _ =>
      Reads.pure (Member.number s.number profiles)
  refine reads.of_eq fun files => ?_
  rfl

end FileSource

end TrustRoles
