import TrustRoles.Proofs.Inspection.Reply
import TrustRoles.Proofs.Session.Effect

namespace TrustRoles

namespace Session

inductive Task where
  | step (st : Step)
  | shelve (wish : Nat) (name : String) (paths : List Path)
  | query (name : String) (c : Criterion)
  | inspect (name : String)
  | inspectPaths (wish : Nat) (paths : List Path)
  | change (files : FileSystem)

def perform (s : Session) : Task → Session
  | .step st => (s.step st).2
  | .shelve wish name paths => s.holdNear wish name fun n => .files ⟨n, paths, none⟩
  | .query name c => (s.access name fun p => (s.query p c).map fun r => (.silent, r.2)).2
  | .inspect name => (s.access name fun p => (s.inspect p).map fun r => (.silent, r.2)).2
  | .inspectPaths wish paths => (s.inspectPathsNear wish paths).2
  | .change files => { s with world := { s.world with files := files } }

theorem foldl_perform {I : Session → Prop}
    (kept : ∀ {s : Session} (task : Task), I s → I (s.perform task)) {s : Session}
    (tasks : List Task) (h : I s) : I (tasks.foldl perform s) := by
  induction tasks generalizing s with
  | nil => exact h
  | cons task tasks ih => exact ih (kept task h)

def Sound (s : Session) : Prop :=
  ∀ q ∈ s.registry.places, ∀ f source, s.memo.filed? q = some f →
    s.registry.state? q = some source → source.Backs f.assignment

variable {s after : Session} {p : Nat} {source : Source}

theorem sound_start (files : FileSystem) : (start files).Sound :=
  fun _ live => absurd live List.not_mem_nil

theorem fetch_backed (h : s.Sound) (live : p ∈ s.registry.places)
    (held : s.registry.state? p = some source) :
    ∃ r m' kept x, s.fetch p = some (r, ⟨x, s.registry.update p fun _ => kept, m'⟩) ∧
      (∀ a, source.Backs a → kept.Backs a) ∧ s.memo.Adds m' p kept := by
  obtain ⟨r, m', kept, x, ran, keeps, adds, -⟩ := Memo.run_fetch_backed
    (Registry.alive_iff.mpr live) (fun f filed => h p live f source filed held) s.world
  refine ⟨r, m', kept, x, ?_, keeps, adds⟩
  simp only [fetch, consult, held, Option.map_some, run, ran]

theorem inspect_backed (h : s.Sound) (live : p ∈ s.registry.places)
    (held : s.registry.state? p = some source) :
    ∃ r m' kept x, s.inspect p = some (r, ⟨x, s.registry.update p fun _ => kept, m'⟩) ∧
      (∀ a, source.Backs a → kept.Backs a) ∧ s.memo.Adds m' p kept ∧
      ∀ contents, source.contents? s.world.files = some contents →
        Inspection.Replies contents r kept := by
  obtain ⟨r, m', kept, x, ran, keeps, adds, replies⟩ := Inspection.run_inspect _
    (Registry.alive_iff.mpr live) (fun f filed => h p live f source filed held) s.world
  refine ⟨r, m', kept, x, ?_, keeps, adds, replies⟩
  simp only [inspect, consult, held, Option.map_some, run, ran]

theorem inspectPathsNear_backed (s : Session) (wish : Nat) {paths : List Path}
    (given : paths ≠ []) :
    ∃ r m' kept x, s.inspectPathsNear wish paths = (r, ⟨x, s.registry.skip, m'⟩) ∧
      s.memo.Adds m' (s.vacant wish) kept ∧
      Inspection.Replies ((FileSource.mk s.registry.next paths none).onDisk s.world.files) r
        kept := by
  have unfiled := Memo.filed?_eq_none_of_not_mem (s.vacant_not_mem wish).2
  obtain ⟨r, m', kept, x, ran, adds, replies⟩ :=
    Inspection.run_inspectPaths s.registry.alive unfiled s.registry.next given s.world
  refine ⟨r, m', kept, x, ?_, adds, replies⟩
  simp only [inspectPathsNear, run, ran]

namespace Sound

theorem mono (h : s.Sound) (places : after.registry.places ⊆ s.registry.places)
    (filed : ∀ q f, after.memo.filed? q = some f → s.memo.filed? q = some f)
    (backs : ∀ q kept, after.registry.state? q = some kept →
      ∃ source, s.registry.state? q = some source ∧ ∀ a, source.Backs a → kept.Backs a) :
    after.Sound := by
  intro q live f kept found held
  obtain ⟨source, stood, keeps⟩ := backs q kept held
  exact keeps _ (h q (places live) f source (filed q f found) stood)

theorem of_registry (h : s.Sound) (registry : after.registry = s.registry)
    (filed : ∀ q f, after.memo.filed? q = some f → s.memo.filed? q = some f) : after.Sound := by
  refine h.mono ?_ filed fun q kept held => ⟨kept, ?_, fun a backs => backs⟩
  · rw [registry]
    exact List.Subset.refl _
  · rwa [registry] at held

theorem consulted (h : s.Sound) {kept : Source} {m' : Memo} (x : World)
    (held : s.registry.state? p = some source) (keeps : ∀ a, source.Backs a → kept.Backs a)
    (adds : s.memo.Adds m' p kept) :
    Sound ⟨x, s.registry.update p fun _ => kept, m'⟩ := by
  intro q live f found filed standing
  dsimp only at standing
  rw [Registry.state?_update] at standing
  obtain ⟨stood, before, rfl⟩ := Option.map_eq_some_iff.mp standing
  by_cases here : q = p
  · rw [if_pos here]
    rcases adds q f filed with old | ⟨-, backs⟩
    · subst here
      obtain rfl : source = stood := Option.some.inj (held.symm.trans before)
      exact keeps _ (h q live f source old held)
    · exact backs
  · rw [if_neg here]
    rcases adds q f filed with old | ⟨there, -⟩
    · exact h q live f stood old before
    · exact absurd there here

theorem holdNear (h : s.Sound) (wish : Nat) (name : String) (make : Nat → Source) :
    (s.holdNear wish name make).Sound := by
  intro q live f found filed held
  rw [state?_holdNear] at held
  by_cases new : q = s.vacant wish
  · -- the place was free, so nothing on file is for it
    have unfiled := Memo.filed?_eq_none_of_not_mem (s.vacant_not_mem wish).2
    rw [← new] at unfiled
    cases unfiled.symm.trans filed
  · rw [if_neg new] at held
    exact h q ((Registry.mem_places_bind live).resolve_left new) f found filed held

theorem access (h : s.Sound) {name : String} {f : Nat → Option (Reply × Session)}
    (accessed : ∀ p ∈ s.registry.places, ∀ r, f p = some r → r.2.Sound) :
    (s.access name f).2.Sound := by
  rcases s.access_eq_or name f with idle | ⟨p, r, live, made, reached⟩
  · rw [idle]
    exact h
  · rw [reached]
    exact accessed p live r made

theorem share (h : s.Sound) (name other : String) : (s.share name other).Sound := by
  refine h.mono (fun q live => Registry.mem_places_share live) (fun q f filed => filed)
    fun q kept held => ⟨kept, ?_, fun a backs => backs⟩
  have same := congrArg (Option.map Holding.state) (s.registry.holding?_share name other q)
  exact same.symm.trans held

theorem drop (h : s.Sound) (name : String) : (s.drop name).Sound :=
  h.mono (s.registry.places_drop name) (fun _ _ filed => filed)
    fun _ kept held => ⟨kept, held, fun _ backs => backs⟩

theorem failFrom (h : s.Sound) (p : Nat) (n : Option Nat) :
    (s.update p (Source.failFrom n)).Sound := by
  refine h.mono (List.Subset.refl _) (fun q f filed => filed) fun q kept held => ?_
  change (s.registry.update p _).state? q = some kept at held
  rw [Registry.state?_update] at held
  obtain ⟨source, stood, rfl⟩ := Option.map_eq_some_iff.mp held
  refine ⟨source, stood, fun a backs => ?_⟩
  split
  · exact backs.failFrom n
  · exact backs

theorem forget (h : s.Sound) (live : p ∈ s.registry.places) : (s.forget p).2.Sound := by
  refine h.of_registry (s.registry_forget p) fun q f filed => ?_
  rw [memo_forget, Memo.filed?_forget (Registry.alive_iff.mpr live)] at filed
  split at filed
  · cases filed
  · exact filed

theorem sweep (h : s.Sound) : s.sweep.2.Sound := by
  refine h.of_registry s.registry_sweep fun q f filed => ?_
  rw [memo_sweep, Memo.filed?_swept] at filed
  split at filed
  · exact filed
  · cases filed

theorem step (h : s.Sound) (st : Step) : (s.step st).2.Sound := by
  cases st with
  | create wish name members failsFrom failure => exact h.holdNear wish name _
  | list wish name members => exact h.holdNear wish name _
  | share name other => exact h.share name other
  | drop name => exact h.drop name
  | failFrom name n =>
      refine h.access fun p _ r made => ?_
      obtain rfl := Option.some.inj made
      exact h.failFrom p n
  | fetch name =>
      refine h.access fun p live r made => ?_
      obtain ⟨fetched, found, rfl⟩ := Option.map_eq_some_iff.mp made
      cases held : s.registry.state? p with
      | none => simp [Session.fetch, consult, held] at found
      | some source =>
          obtain ⟨r, m', kept, x, ran, keeps, adds⟩ := fetch_backed h live held
          obtain rfl := Option.some.inj (ran.symm.trans found)
          exact h.consulted x held keeps adds
  | peek name =>
      refine h.access fun p _ r made => ?_
      obtain rfl := Option.some.inj made
      exact h
  | forget name =>
      refine h.access fun p live r made => ?_
      obtain rfl := Option.some.inj made
      exact h.forget live
  | sweep => exact h.sweep

theorem inspectPathsNear (h : s.Sound) (wish : Nat) (paths : List Path) :
    (s.inspectPathsNear wish paths).2.Sound := by
  cases paths with
  | nil => exact h
  | cons path paths =>
      obtain ⟨r, m', kept, x, ran, adds, -⟩ :=
        s.inspectPathsNear_backed wish (List.cons_ne_nil path paths)
      rw [ran]
      intro q live f found filed held
      rcases adds q f filed with old | ⟨rfl, -⟩
      · exact h q live f found old held
      · exact absurd live (s.vacant_not_mem wish).1

theorem query (h : s.Sound) (p : Nat) (c : Criterion) {r : Answer × Session}
    (asked : s.query p c = some r) : r.2.Sound := by
  obtain ⟨source, held, rfl⟩ := Option.map_eq_some_iff.mp asked
  exact h.consulted _ held (fun a backs => backs.consult _ _) fun q f filed => .inl filed

theorem inspect (h : s.Sound) (live : p ∈ s.registry.places) {r : Except Fault Report × Session}
    (inspected : s.inspect p = some r) : r.2.Sound := by
  cases held : s.registry.state? p with
  | none => simp [Session.inspect, consult, held] at inspected
  | some source =>
      obtain ⟨r, m', kept, x, ran, keeps, adds, -⟩ := inspect_backed h live held
      obtain rfl := Option.some.inj (ran.symm.trans inspected)
      exact h.consulted x held keeps adds

theorem perform (h : s.Sound) (task : Task) : (s.perform task).Sound := by
  cases task with
  | step st => exact h.step st
  | shelve wish name paths => exact h.holdNear wish name _
  | query name c =>
      refine h.access fun p _ r made => ?_
      obtain ⟨answered, asked, rfl⟩ := Option.map_eq_some_iff.mp made
      exact h.query p c asked
  | inspect name =>
      refine h.access fun p live r made => ?_
      obtain ⟨reported, inspected, rfl⟩ := Option.map_eq_some_iff.mp made
      exact h.inspect live inspected
  | inspectPaths wish paths => exact h.inspectPathsNear wish paths
  | change files => exact h.of_registry rfl fun q f filed => filed

end Sound

/-- The files are trees as in `FileSystem`: no links, names that are text. -/
theorem inspection (files : FileSystem) (tasks : List Task) :
    let s := tasks.foldl perform (start files)
    (∀ name p source contents, s.registry.holder? name = some p →
      s.registry.state? p = some source → source.contents? s.world.files = some contents →
      ∃ r after kept, s.inspect p = some (r, after) ∧ after.registry.state? p = some kept ∧
        r = Inspection.anew source s.world ∧
        (∀ report, r = .ok report → ∀ w, Inspection.anew kept w = .ok report) ∧
        Inspection.Inspected contents r) ∧
    (∀ wish paths, paths ≠ [] →
      let source : FileSource := ⟨s.registry.next, paths, none⟩
      let r := (s.inspectPathsNear wish paths).1
      r = Inspection.anew (.files source) s.world ∧
      Inspection.Inspected (source.onDisk s.world.files) r) ∧
    ∀ wish, (s.inspectPathsNear wish []).1 =
      .error (.configuration "No certificate files given") := by
  intro s
  have sound : s.Sound := foldl_perform (fun task h => h.perform task) tasks (sound_start files)
  refine ⟨fun name p source contents holder held standing => ?_, fun wish paths given => ?_,
    fun wish => rfl⟩
  · obtain ⟨r, m', kept, x, ran, -, -, replies⟩ :=
      inspect_backed sound (Registry.mem_places_of_holder? holder) held
    obtain ⟨rfl, settled⟩ := replies contents standing
    refine ⟨_, _, kept, ran, ?_, (Inspection.anew_eq standing).symm, fun report found w => ?_,
      Inspection.inspected_reply contents⟩
    · exact (s.registry.state?_update p _ p).trans (by rw [held, Option.map_some, if_pos rfl])
    · obtain ⟨members, -, rfl, -⟩ := (Inspection.inspected_reply contents).report report found
      rw [Inspection.anew_eq ((settled members rfl).contents? w.files), found]
  · obtain ⟨r, m', kept, x, ran, -, replies⟩ := s.inspectPathsNear_backed wish given
    obtain ⟨rfl, -⟩ := replies
    dsimp only
    rw [ran]
    exact ⟨(Inspection.anew_eq rfl).symm, Inspection.inspected_reply _⟩

end Session

end TrustRoles
