import TrustRoles.Proofs.Inspection.History
import TrustRoles.Proofs.Session.Accounting

namespace TrustRoles

namespace Inspection

variable {m : Memo} {p : Nat}

theorem exists_run_inspect (alive : Nat → Bool) (live : alive p = true) (m : Memo)
    (source : Source) (w : World) :
    ∃ report after kept x,
      World.run (source.consult (inspect alive p m)) w = (((report, after), kept), x) ∧
      Memo.Fetched alive p m after := by
  obtain ⟨r, after, kept, x, ran, fetched⟩ := Memo.exists_run_fetch live m source w
  obtain ⟨report, kept', x', concluded⟩ := run_conclude after r kept x
  exact ⟨report, after, kept', x', (run_inspect_of_fetch ran).trans concluded, fetched⟩

end Inspection

namespace Session

variable {s after : Session} {p : Nat}

theorem moves_inspect (live : s.registry.alive p = true) {r : Except Fault Report × Session}
    (inspected : s.inspect p = some r) : s.Moves r.2 := by
  refine moves_consult_memo (fun source => ?_) inspected
  obtain ⟨report, m, kept, x, ran, fetched⟩ :=
    Inspection.exists_run_inspect s.registry.alive live s.memo source s.world
  rw [ran]
  exact fetched.follows

theorem inspectPathsNear_eq (s : Session) (wish : Nat) {paths : List Path} (given : paths ≠ []) :
    ∃ report m x, s.inspectPathsNear wish paths = (report, ⟨x, s.registry.skip, m⟩) ∧
      Memo.Fetched (fun q => q == s.vacant wish || s.registry.alive q) (s.vacant wish) s.memo
        m := by
  have live : (s.vacant wish == s.vacant wish || s.registry.alive (s.vacant wish)) = true := by
    rw [beq_self_eq_true, Bool.true_or]
  obtain ⟨report, m, kept, x, ran, fetched⟩ := Inspection.exists_run_inspect
    (fun q => q == s.vacant wish || s.registry.alive q) live s.memo
    (.files ⟨s.registry.next, paths, none⟩)
    { s.world with notices := s.world.notices ++ [.inspecting paths.length] }
  refine ⟨report, m, x, ?_, fetched⟩
  simp only [inspectPathsNear, run, Inspection.run_inspectPaths_of_inspect given ran]

theorem moves_inspectPathsNear (s : Session) (wish : Nat) (paths : List Path) :
    s.Moves (s.inspectPathsNear wish paths).2 := by
  cases paths with
  | nil => exact .keep (List.Subset.refl _) (fun _ => rfl) (Nat.le_succ _) (.refl _)
  | cons path paths =>
      obtain ⟨report, m, x, ran, fetched⟩ :=
        s.inspectPathsNear_eq wish (List.cons_ne_nil path paths)
      rw [ran]
      exact .keep (List.Subset.refl _) (fun _ => rfl) (Nat.le_succ _) fetched.follows

theorem moves_perform (s : Session) (task : Task) : s.Moves (s.perform task) := by
  cases task with
  | step st => exact s.moves_step st
  | shelve wish name paths => exact .hold wish name _
  | query name c =>
      refine moves_access fun p _ r made => ?_
      obtain ⟨answered, asked, rfl⟩ := Option.map_eq_some_iff.mp made
      have moved : s.Moves answered.2 := moves_consult asked
      exact moved
  | inspect name =>
      refine moves_access fun p live r made => ?_
      obtain ⟨reported, inspected, rfl⟩ := Option.map_eq_some_iff.mp made
      exact moves_inspect live inspected
  | inspectPaths wish paths => exact s.moves_inspectPathsNear wish paths
  | change files =>
      exact .keep (List.Subset.refl _) (fun _ => rfl) (Nat.le_refl _) (.refl _)

theorem foldl_moves {I : Session → Prop}
    (kept : ∀ {s after : Session}, I s → s.Moves after → I after) (tasks : List Task) (h : I s) :
    I (tasks.foldl perform s) :=
  foldl_perform (fun {s} task h => kept h (s.moves_perform task)) tasks h

structure Tidy (s : Session) : Prop where
  held : ∀ p ∈ s.registry.places, ∃ k, s.registry.number? p = some k
  numbered : s.Numbered
  once : s.memo.places.Nodup
  issued : ∀ {p f}, s.memo.filed? p = some f → f.number < s.memo.issued

namespace Tidy

theorem start (files : FileSystem) : Tidy (start files) where
  held p hp := by cases hp
  numbered := (Grounded.start files).numbered
  once := List.nodup_nil
  issued h := by cases h

theorem moves (h : s.Tidy) (moves : s.Moves after) : after.Tidy := by
  cases moves with
  | keep places number? next memo =>
      refine ⟨fun p hp => ?_, ⟨fun {p k} hk => ?_, fun {p q k} hp hq => ?_⟩, memo.nodup h.once,
        fun {p f} filed => ?_⟩
      · rw [number?]
        exact h.held p (places hp)
      · rw [number?] at hk
        exact Nat.lt_of_lt_of_le (h.numbered.below hk) next
      · rw [number?] at hp hq
        exact h.numbered.single hp hq
      · rcases memo.filed p f filed with before | ⟨-, below⟩
        · exact Nat.lt_of_lt_of_le (h.issued before) memo.issued
        · exact below
  | hold wish name make =>
      refine ⟨fun p hp => ?_, h.numbered.holdNear wish name make, h.once, h.issued⟩
      by_cases new : p = s.vacant wish
      · exact ⟨s.registry.next, (Registry.number?_hold ..).trans (if_pos new)⟩
      · rw [number?_holdNear_of_ne new]
        exact h.held p ((Registry.mem_places_bind hp).resolve_left new)

theorem countP_living (h : s.Tidy) : (s.living.countP fun k => decide (k ∈ s.owners)) =
    (s.memo.places.filter s.registry.alive).length := by
  have once : s.owners.Nodup := h.once.filterMap fun _ _ _ hp hq => h.numbered.single hp hq
  have numbered : ∀ p ∈ s.memo.places.filter s.registry.alive, (s.registry.number? p).isSome := by
    intro p hp
    obtain ⟨k, number⟩ := h.held p (Registry.alive_iff.mp (List.mem_filter.mp hp).2)
    exact Option.isSome_of_eq_some number
  calc (s.living.countP fun k => decide (k ∈ s.owners))
      = (s.living.filter fun k => decide (k ∈ s.owners)).length := List.countP_eq_length_filter
    _ = (s.owners.filter s.lives).length := (perm_living h.numbered once).length_eq.symm
    _ = ((s.memo.places.filter s.registry.alive).filterMap s.registry.number?).length :=
        congrArg List.length (filterMap_filter_places fun p k number =>
          (lives_of_number? h.numbered number).symm).symm
    _ = (s.memo.places.filter s.registry.alive).length :=
        List.filterMap_length_eq_length.mpr numbered

end Tidy

structure Retired (f : Filed) (s : Session) : Prop where
  issued : f.number < s.memo.issued
  unheld : ∀ q ∈ s.registry.places, s.memo.filed? q ≠ some f

namespace Retired

variable {f : Filed}

theorem moves (h : Retired f s) (moves : s.Moves after) : Retired f after := by
  cases moves with
  | keep places number? next memo =>
      refine ⟨Nat.lt_of_lt_of_le h.issued memo.issued, fun q live filed => ?_⟩
      rcases memo.filed q f filed with before | ⟨late, -⟩
      · exact h.unheld q (places live) before
      · exact absurd h.issued (Nat.not_lt_of_le late)
  | hold wish name make =>
      refine ⟨h.issued, fun q live filed => ?_⟩
      rcases Registry.mem_places_bind live with rfl | old
      · have unfiled := Memo.filed?_eq_none_of_not_mem (s.vacant_not_mem wish).2
        cases unfiled.symm.trans filed
      · exact h.unheld q old filed

theorem filed?_ne (h : Retired f s) (name : String) : s.filed? name ≠ some f := by
  cases holder : s.registry.holder? name with
  | none => simp [Session.filed?, holder]
  | some p =>
      rw [filed?_of_holder? holder]
      exact h.unheld p (Registry.mem_places_of_holder? holder)

theorem reply_ne (h : Retired f s) (st : Step) : (s.step st).1.filed? ≠ some f := by
  intro told
  have effect := s.step_effect st
  generalize (s.step st).1 = reply, (s.step st).2 = after at effect told
  cases effect with
  | create wish name made answers => cases told
  | keep keeps members issued filed before =>
      obtain ⟨name, p, -, holder, found⟩ := before f told
      exact h.unheld p (Registry.mem_places_of_holder? holder) found
  | assign holder state fresh found keeps issued settled filed =>
      obtain rfl := Option.some.inj told
      exact absurd h.issued (Nat.lt_irrefl _)

end Retired

theorem not_mem_places_foldl (gone : p ∉ s.registry.places) {tasks : List Task}
    (stays : ∀ early, early <+: tasks → p ∈ (early.foldl perform s).memo.places) :
    p ∉ (tasks.foldl perform s).registry.places := by
  induction tasks generalizing s with
  | nil => exact gone
  | cons task tasks ih =>
      refine ih (fun live => gone ?_) fun early start => ?_
      · exact mem_places_of_moves (s.moves_perform task) (stays [] List.nil_prefix) live
      · exact stays (task :: early) (List.cons_prefix_cons.mpr ⟨rfl, start⟩)

theorem places_inspectPathsNear (s : Session) (wish : Nat) {paths : List Path}
    (given : paths ≠ []) : (s.inspectPathsNear wish paths).2.memo.places =
      s.memo.places.filter s.registry.alive ++ [s.vacant wish] := by
  obtain ⟨report, m, x, ran, fetched⟩ := s.inspectPathsNear_eq wish given
  have free := (s.vacant_not_mem wish).2
  rw [ran]
  refine (fetched.places.trans (Memo.places_ready_of_not_mem free)).trans ?_
  congr 1
  refine List.filter_congr fun q slot => ?_
  have other : (q == s.vacant wish) = false := beq_false_of_ne fun same => free (same ▸ slot)
  rw [other, Bool.false_or]

theorem retired_inspectPathsNear (h : s.Tidy) (wish : Nat) {paths : List Path}
    (given : paths ≠ []) {f : Filed}
    (filed : (s.inspectPathsNear wish paths).2.memo.filed? (s.vacant wish) = some f) :
    Retired f (s.inspectPathsNear wish paths).2 := by
  obtain ⟨report, m, x, ran, fetched⟩ := s.inspectPathsNear_eq wish given
  obtain ⟨gone, free⟩ := s.vacant_not_mem wish
  rw [ran] at filed ⊢
  rcases fetched.follows.filed _ f filed with before | ⟨late, below⟩
  · cases (Memo.filed?_eq_none_of_not_mem free).symm.trans before
  · -- a number as late as this is on file for the vacant place only, to which no name leads
    refine ⟨below, fun q live found => ?_⟩
    have other : q ≠ s.vacant wish := fun same => gone (same ▸ live)
    exact absurd (h.issued (fetched.filed?_of_ne other found)) (Nat.not_lt_of_le late)

/-- The files are trees as in `FileSystem`: no links, names that are text. -/
theorem residue (files : FileSystem) (tasks : List Task) (wish : Nat) :
    let s := tasks.foldl perform (start files)
    (∀ paths, paths ≠ [] →
      let after := (s.inspectPathsNear wish paths).2
      let p := s.vacant wish
      after.memo.size = (after.living.countP fun k => decide (k ∈ after.owners)) + 1 ∧
      after.memo.places = s.memo.places.filter after.registry.alive ++ [p] ∧
      p ∉ after.registry.places ∧
      ∀ rest : List Task, let later := rest.foldl perform after
        ((∀ early, early <+: rest → p ∈ (early.foldl perform after).memo.places) →
          p ∉ later.registry.places) ∧
        ∀ f, after.memo.filed? p = some f → (∀ name, later.filed? name ≠ some f) ∧
          (∀ wish, later.memo.filed? (later.vacant wish) ≠ some f) ∧
          ∀ st, (later.step st).1.filed? ≠ some f) ∧
    (s.inspectPathsNear wish []).1 = .error (.configuration "No certificate files given") ∧
      (s.inspectPathsNear wish []).2.memo = s.memo := by
  intro s
  have tidy : s.Tidy := foldl_moves Tidy.moves tasks (Tidy.start files)
  refine ⟨fun paths given => ?_, rfl, rfl⟩
  intro after p
  have gone : p ∉ after.registry.places := (s.vacant_not_mem wish).1
  have alive : after.registry.alive = s.registry.alive := rfl
  have places : after.memo.places = s.memo.places.filter s.registry.alive ++ [p] :=
    s.places_inspectPathsNear wish given
  have tidied : after.Tidy := tidy.moves (s.moves_inspectPathsNear wish paths)
  refine ⟨?_, places, gone, fun rest => ?_⟩
  · have own : after.registry.alive p = false :=
      Bool.eq_false_iff.mpr fun live => gone (Registry.alive_iff.mp live)
    have swept : after.memo.places.filter after.registry.alive =
        s.memo.places.filter s.registry.alive := by
      rw [alive] at own ⊢
      simp [places, own]
    rw [tidied.countP_living, swept, Memo.size_eq, places, List.length_append,
      List.length_singleton]
  · intro later
    refine ⟨not_mem_places_foldl gone, fun f filed => ?_⟩
    have retired : Retired f later :=
      foldl_moves Retired.moves rest (retired_inspectPathsNear tidy wish given filed)
    refine ⟨retired.filed?_ne, fun wish => ?_, retired.reply_ne⟩
    rw [Memo.filed?_eq_none_of_not_mem (later.vacant_not_mem wish).2]
    simp

end Session

end TrustRoles
