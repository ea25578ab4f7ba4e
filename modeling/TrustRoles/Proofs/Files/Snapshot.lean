import TrustRoles.Proofs.Choice
import TrustRoles.Proofs.Files.OnDisk

namespace TrustRoles

structure Shelf where
  source : FileSource
  world : World

namespace Shelf

variable {α : Type}

inductive Visit where
  | query (c : Criterion)
  | change (files : FileSystem)

def query (c : Criterion) (s : Shelf) : Answer × Shelf :=
  let r := World.run (s.source.answer c) s.world
  (r.1.1, ⟨r.1.2, r.2⟩)

def change (files : FileSystem) (s : Shelf) : Shelf :=
  { s with world := { s.world with files := files } }

def note (n : Notice) (s : Shelf) : Shelf :=
  { s with world := { s.world with notices := s.world.notices ++ [n] } }

def advance (s : Shelf) : List Visit → Shelf
  | [] => s
  | .query c :: visits => (s.query c).2.advance visits
  | .change files :: visits => (s.change files).advance visits

def answers (s : Shelf) : List Visit → List Answer
  | [] => []
  | .query c :: visits => (s.query c).1 :: (s.query c).2.answers visits
  | .change files :: visits => (s.change files).answers visits

/-- Before each question the files are as given for the number of questions so far. -/
def consultAmid (files : Nat → FileSystem) :
    Consultation α → Shelf → Transcript → (α × Transcript) × Shelf
  | .done a, s, t => ((a, t), s)
  | .call (.ask c) next, s, t =>
      let r := (s.change (files t.criteria.length)).query c
      consultAmid files (next r.1) r.2 (t ++ [.asked c r.1])
  | .call (.note n) next, s, t => consultAmid files (next ()) (s.note n) (t ++ [.noted n])

theorem query_of_loaded {s : Shelf} {members : List Member} (h : s.source.loaded = some members)
    (c : Criterion) : s.query c = (.ok ((Listing.mk members).select c), s) := by
  have snapshot : s.source.snapshot = pure (.ok members, s.source) := by
    rw [FileSource.snapshot, h]
  simp only [query, FileSource.answer, snapshot]
  rfl

theorem run_snapshot_of_not_loaded {s : FileSource} (h : s.loaded = none) (w : World) :
    ∃ v, v.files = w.files ∧ World.run s.snapshot w = (match s.onDisk w.files with
      | .error f => (.error f, s)
      | .ok members => (.ok members, { s with loaded := some members }), v) := by
  obtain ⟨found, files⟩ := s.reads_readAll w
  refine ⟨_, files, ?_⟩
  rw [← found, FileSource.snapshot, h]
  dsimp only
  rw [World.run_bind]
  cases (World.run s.readAll.run w).1 with
  | error f => rfl
  | ok members => rfl

theorem query_of_fault {s : Shelf} {f : Fault} (h : s.source.loaded = none)
    (hf : s.source.onDisk s.world.files = .error f) (c : Criterion) :
    (s.query c).1 = .error f.toQueryFailure ∧ (s.query c).2.source = s.source ∧
      (s.query c).2.world.files = s.world.files := by
  obtain ⟨v, files, ran⟩ := run_snapshot_of_not_loaded h s.world
  rw [hf] at ran
  have answered : World.run (s.source.answer c) s.world =
      ((.error f.toQueryFailure, s.source), v) := by
    rw [FileSource.answer, World.run_bind, ran]
    rfl
  rw [query, answered]
  exact ⟨rfl, rfl, files⟩

theorem query_of_onDisk {s : Shelf} {members : List Member} (h : s.source.loaded = none)
    (hm : s.source.onDisk s.world.files = .ok members) (c : Criterion) :
    (s.query c).1 = .ok ((Listing.mk members).select c) ∧
      (s.query c).2.source = { s.source with loaded := some members } ∧
      (s.query c).2.world.files = s.world.files := by
  obtain ⟨v, files, ran⟩ := run_snapshot_of_not_loaded h s.world
  rw [hm] at ran
  have answered : World.run (s.source.answer c) s.world =
      ((.ok ((Listing.mk members).select c), { s.source with loaded := some members }), v) := by
    rw [FileSource.answer, World.run_bind, ran]
    rfl
  rw [query, answered]
  exact ⟨rfl, rfl, files⟩

theorem files_query (s : Shelf) (c : Criterion) : (s.query c).2.world.files = s.world.files := by
  cases loaded : s.source.loaded with
  | some members => rw [query_of_loaded loaded]
  | none =>
      cases found : s.source.onDisk s.world.files with
      | error f => exact (query_of_fault loaded found c).2.2
      | ok members => exact (query_of_onDisk loaded found c).2.2

theorem source_advance_of_loaded {s : Shelf} {members : List Member}
    (h : s.source.loaded = some members) (visits : List Visit) :
    (s.advance visits).source = s.source := by
  induction visits generalizing s with
  | nil => rfl
  | cons visit visits ih =>
      cases visit with
      | query c =>
          rw [advance, query_of_loaded h]
          exact ih h
      | change files => exact ih (s := s.change files) h

theorem source_advance_of_failed {s : Shelf} (h : s.source.loaded = none) {visits : List Visit}
    (failed : ∀ a ∈ s.answers visits, ∃ f, a = .error f) :
    (s.advance visits).source = s.source := by
  induction visits generalizing s with
  | nil => rfl
  | cons visit visits ih =>
      cases visit with
      | query c =>
          cases found : s.source.onDisk s.world.files with
          | error f =>
              obtain ⟨-, same, -⟩ := query_of_fault h found c
              have later := ih (s := (s.query c).2) (same ▸ h) fun a ha =>
                failed a (List.mem_cons_of_mem _ ha)
              exact later.trans same
          | ok members =>
              obtain ⟨f, hf⟩ := failed _ (List.mem_cons_self ..)
              cases (query_of_onDisk h found c).1.symm.trans hf
      | change files => exact ih (s := s.change files) h failed

theorem run_consult (s : Shelf) (i : Consultation α) (t : Transcript) :
    World.run ((Source.files s.source).consult i) s.world =
      (((s.consultAmid (fun _ => s.world.files) i t).1.1,
        .files (s.consultAmid (fun _ => s.world.files) i t).2.source),
        (s.consultAmid (fun _ => s.world.files) i t).2.world) := by
  unfold Source.consult
  induction i generalizing s t with
  | done a => rfl
  | call c next ih =>
      cases c with
      | ask c =>
          have asked : World.run ((Source.files s.source).answer c) s.world =
              (((s.query c).1, .files (s.query c).2.source), (s.query c).2.world) :=
            World.run_bind ..
          have later := ih (s.query c).1 (s.query c).2 (t ++ [.asked c (s.query c).1])
          rw [s.files_query c] at later
          have first := Source.run_carryOut_ask c next (.files s.source) s.world
          rw [asked] at first
          exact first.trans later
      | note n => exact ih () (s.note n) _

theorem consultAmid_of_loaded {s : Shelf} {members : List Member}
    (h : s.source.loaded = some members) (files : Nat → FileSystem) (i : Consultation α)
    (t : Transcript) :
    (s.consultAmid files i t).1 = (Listing.mk members).oracle.consult i t ∧
      (s.consultAmid files i t).2.source = s.source := by
  induction i generalizing s t with
  | done a => exact ⟨rfl, rfl⟩
  | call c next ih =>
      cases c with
      | ask c =>
          have asked := query_of_loaded (s := s.change (files t.criteria.length)) h c
          rw [consultAmid, asked]
          exact ih _ (s := s.change (files t.criteria.length)) h _
      | note n => exact ih _ (s := s.note n) h _

theorem consultAmid_of_onDisk {s : Shelf} {members : List Member} (h : s.source.loaded = none)
    {files : Nat → FileSystem} (hm : s.source.onDisk (files 0) = .ok members) (c : Criterion)
    (next : Answer → Consultation α) :
    (s.consultAmid files (.call (.ask c) next) []).1 =
        (Listing.mk members).oracle.consult (.call (.ask c) next) [] ∧
      (s.consultAmid files (.call (.ask c) next) []).2.source.loaded = some members := by
  obtain ⟨answered, source, -⟩ := query_of_onDisk (s := s.change (files 0)) h hm c
  have loaded : ((s.change (files 0)).query c).2.source.loaded = some members := by rw [source]
  obtain ⟨rest, same⟩ := consultAmid_of_loaded loaded files (next ((s.change (files 0)).query c).1)
    [.asked c ((s.change (files 0)).query c).1]
  refine ⟨rest.trans ?_, (congrArg FileSource.loaded same).trans loaded⟩
  rw [answered]
  rfl

theorem consultAmid_of_fault {s : Shelf} {f : Fault} (h : s.source.loaded = none)
    {files : Nat → FileSystem} (hf : s.source.onDisk (files 0) = .error f) (c : Criterion)
    (next : Answer → Consultation α) :
    ∃ v : Shelf, v.source = s.source ∧ s.consultAmid files (.call (.ask c) next) [] =
      v.consultAmid files (next (.error f.toQueryFailure)) [.asked c (.error f.toQueryFailure)] := by
  obtain ⟨answered, source, -⟩ := query_of_fault (s := s.change (files 0)) h hf c
  refine ⟨((s.change (files 0)).query c).2, source, ?_⟩
  rw [← answered]
  rfl

theorem consultAmid_assignment_of_fault {s : Shelf} {f : Fault} (h : s.source.loaded = none)
    {files : Nat → FileSystem} (hf : s.source.onDisk (files 0) = .error f) :
    (s.consultAmid files Search.assignment.run []).1 =
        (.error (.query f.toQueryFailure), [.asked .any (.error f.toQueryFailure)]) ∧
      (s.consultAmid files Search.assignment.run []).2.source = s.source := by
  -- the first question is the inventory, and its failure ends the search
  obtain ⟨next, first⟩ : ∃ next, Search.assignment.run = .call (.ask .any) next := ⟨_, rfl⟩
  have prompt := Search.prompt_assignment
  rw [first] at prompt ⊢
  obtain ⟨v, same, failed⟩ := consultAmid_of_fault h hf .any next
  rw [failed, prompt.1]
  exact ⟨rfl, same⟩

theorem consultAmid_assignment (s : Shelf) (files : Nat → FileSystem) :
    let r := s.consultAmid files Search.assignment.run []
    (∃ f, s.source.loaded = none ∧ s.source.onDisk (files 0) = .error f ∧
      r.1 = (.error (.query f.toQueryFailure), [.asked .any (.error f.toQueryFailure)]) ∧
      r.2.source = s.source) ∨
    ∃ snapshot, (s.source.loaded = some snapshot ∨
        s.source.loaded = none ∧ s.source.onDisk (files 0) = .ok snapshot) ∧
      r.2.source.loaded = some snapshot ∧
      r.1 = (Listing.mk snapshot).oracle.consult Search.assignment.run [] := by
  intro r
  cases loaded : s.source.loaded with
  | some snapshot =>
      obtain ⟨same, source⟩ := consultAmid_of_loaded loaded files Search.assignment.run []
      exact .inr ⟨snapshot, .inl rfl, (congrArg FileSource.loaded source).trans loaded, same⟩
  | none =>
      cases found : s.source.onDisk (files 0) with
      | error f =>
          obtain ⟨failed, source⟩ := consultAmid_assignment_of_fault loaded found
          exact .inl ⟨f, rfl, rfl, failed, source⟩
      | ok snapshot =>
          obtain ⟨same, source⟩ := consultAmid_of_onDisk loaded found .any _
          exact .inr ⟨snapshot, .inr ⟨rfl, rfl⟩, source, same⟩

/-- The files are trees as in `FileSystem`: no links, names that are text. -/
theorem one_snapshot (number : Nat) (paths : List Path) (w : World) :
    (∀ early, (∀ a ∈ (Shelf.mk ⟨number, paths, none⟩ w).answers early, ∃ f, a = .error f) →
      let s := (Shelf.mk ⟨number, paths, none⟩ w).advance early
      s.source = ⟨number, paths, none⟩ ∧
      ∀ c, (∀ f, s.source.onDisk s.world.files = .error f →
          (s.query c).1 = .error f.toQueryFailure ∧ (s.query c).2.source = s.source) ∧
        ∀ snapshot, s.source.onDisk s.world.files = .ok snapshot →
          (s.query c).1 = .ok ((Listing.mk snapshot).select c) ∧
          ∀ late d, (((s.query c).2.advance late).query d).1 =
            .ok ((Listing.mk snapshot).select d)) ∧
    (∀ s : Shelf, (Source.files s.source).outcome Search.assignment s.world =
      (s.consultAmid (fun _ => s.world.files) Search.assignment.run []).1.1) ∧
    ∀ (s : Shelf) (files : Nat → FileSystem),
      let r := s.consultAmid files Search.assignment.run []
      (∃ f, s.source.loaded = none ∧ s.source.onDisk (files 0) = .error f ∧
        r.1 = (.error (.query f.toQueryFailure), [.asked .any (.error f.toQueryFailure)]) ∧
        r.2.source = s.source) ∨
      ∃ snapshot, (s.source.loaded = some snapshot ∨
          s.source.loaded = none ∧ s.source.onDisk (files 0) = .ok snapshot) ∧
        r.2.source.loaded = some snapshot ∧
        (∀ c a, .asked c a ∈ r.1.2 → a = .ok ((Listing.mk snapshot).select c)) ∧
        ∀ a, r.1.1 = .ok a → ∀ role, a.get role ∈ snapshot := by
  refine ⟨fun early failed => ?_, fun s => ?_, fun s files => ?_⟩
  · intro s
    have fresh : s.source = ⟨number, paths, none⟩ := source_advance_of_failed rfl failed
    have unloaded : s.source.loaded = none := by rw [fresh]
    refine ⟨fresh, fun c => ⟨fun f hf => ?_, fun snapshot found => ?_⟩⟩
    · obtain ⟨answered, same, -⟩ := query_of_fault unloaded hf c
      exact ⟨answered, same⟩
    · obtain ⟨answered, source, -⟩ := query_of_onDisk unloaded found c
      have loaded : (s.query c).2.source.loaded = some snapshot := by rw [source]
      refine ⟨answered, fun late d => ?_⟩
      have kept := source_advance_of_loaded loaded late
      rw [query_of_loaded ((congrArg FileSource.loaded kept).trans loaded) d]
  · rw [Source.outcome, s.run_consult]
  · intro r
    rcases consultAmid_assignment s files with failed | ⟨snapshot, origin, loaded, same⟩
    · exact .inl failed
    · refine .inr ⟨snapshot, origin, loaded, fun c a ha => ?_, fun a ha role => ?_⟩
      · change .asked c a ∈ r.1.2 at ha
        rw [show r.1 = _ from same] at ha
        exact (Listing.answer_of_mem_consult ha).resolve_left (List.not_mem_nil)
      · rw [show r.1 = _ from same] at ha
        exact Listing.get_mem_of_outcome ha role

end Shelf

end TrustRoles
