import Mathlib.Data.List.Basic
import TrustRoles.Proofs.Session.Moves
import TrustRoles.Proofs.Session.Slots

namespace TrustRoles.Session

variable {past : List Moment} {s : Session}

theorem lives_of_number? (h : s.Numbered) {p k : Nat}
    (number : s.registry.number? p = some k) : s.lives k = s.registry.alive p := by
  rw [Bool.eq_iff_iff, lives_iff, Registry.alive_iff]
  constructor
  · rintro ⟨q, live, same⟩
    rwa [h.single number same]
  · exact fun live => ⟨p, live, number⟩

theorem mem_owners_of_number? (grounded : Grounded past s) {p k : Nat}
    (number : s.registry.number? p = some k) : k ∈ s.owners ↔ p ∈ s.memo.places := by
  rw [mem_owners]
  constructor
  · rintro ⟨q, slot, same⟩
    rwa [grounded.single number same]
  · exact fun slot => ⟨p, slot, number⟩

theorem filterMap_filter_places {keep keepOwner : Nat → Bool}
    (same : ∀ p k, s.registry.number? p = some k → keep p = keepOwner k) :
    (s.memo.places.filter keep).filterMap s.registry.number? = s.owners.filter keepOwner := by
  rw [owners, List.filter_filterMap, List.filterMap_filter]
  refine List.filterMap_congr fun p _ => ?_
  cases number : s.registry.number? p with
  | none => simp
  | some k => rw [same p k number]; rfl

theorem perm_living (h : s.Numbered) (once : s.owners.Nodup) :
    (s.owners.filter s.lives).Perm (s.living.filter fun k => decide (k ∈ s.owners)) := by
  have once' : (s.living.filter fun k => decide (k ∈ s.owners)).Nodup :=
    (List.nodup_range.filter _).filter _
  refine (List.perm_ext_iff_of_nodup (once.filter _) once').mpr fun k => ?_
  rw [List.mem_filter, List.mem_filter, decide_eq_true_iff, living, List.mem_filter,
    List.mem_range, and_comm]
  refine and_congr_left fun owner => ⟨fun live => ⟨?_, live⟩, And.right⟩
  obtain ⟨p, -, number⟩ := mem_owners.mp owner
  exact h.below number

theorem owners_of_keeps {after : Session} (keeps : s.Keeps after) :
    after.owners = after.memo.places.filterMap s.registry.number? := by
  rw [owners, funext keeps.number?]

theorem lives_of_keeps {after : Session} (keeps : s.Keeps after)
    (places : after.registry.places = s.registry.places) : after.lives = s.lives := by
  funext k
  rw [lives, lives, places, funext keeps.number?]

namespace Accounted

theorem nodup_owners (h : Accounted past s) (grounded : Grounded past s) : s.owners.Nodup :=
  h.single.filterMap fun _ _ _ hp hq => grounded.single hp hq

theorem size_eq (h : Accounted past s) : s.memo.size = s.owners.length := by
  have owned : ∀ p ∈ s.memo.places, (s.registry.number? p).isSome := by
    intro p hp
    obtain ⟨k, number, -⟩ := h.owned p hp
    exact Option.isSome_of_eq_some number
  rw [owners, List.filterMap_length_eq_length.mpr owned, Memo.places, List.length_map, Memo.size]

theorem mem_owners_iff (h : Accounted past s) {k : Nat} (live : s.lives k = true) :
    k ∈ s.owners ↔ Fetched past k := by
  obtain ⟨p, held, number⟩ := lives_iff.mp live
  rw [mem_owners]
  constructor
  · rintro ⟨q, slot, same⟩
    obtain ⟨l, owner, fetched⟩ := h.owned q slot
    rwa [Option.some.inj (same.symm.trans owner)]
  · exact fun fetched => ⟨p, h.owed p held k number fetched, number⟩

theorem size_eq_add (h : Accounted past s) (grounded : Grounded past s) :
    s.memo.size = (s.living.countP fun k => decide (k ∈ s.owners)) + s.leftBehind.length := by
  have split := s.owners.length_eq_countP_add_countP s.lives
  rw [List.countP_eq_length_filter,
    (perm_living grounded.numbered (h.nodup_owners grounded)).length_eq,
    ← List.countP_eq_length_filter] at split
  rw [h.size_eq, split, leftBehind, ← List.countP_eq_length_filter]
  simp

end Accounted

theorem keeps_step {st : Step} (members : st.members? = none) : s.Keeps (s.step st).2 :=
  Moment.keeps (m := ⟨s, st⟩) members

theorem owners_step (s : Session) (st : Step) (members : st.members? = none) :
    (s.step st).2.owners = (s.step st).2.memo.places.filterMap s.registry.number? :=
  owners_of_keeps (keeps_step members)

theorem owners_step_peek (s : Session) (name : String) :
    (s.step (.peek name)).2.owners = s.owners := by
  rw [step_peek_snd]

theorem owners_step_forget (grounded : Grounded past s) {name : String} {k : Nat}
    (standing : s.collection? name = some k) :
    (s.step (.forget name)).1 = .forgotten (decide (k ∈ s.owners)) ∧
      (s.step (.forget name)).2.owners = s.owners.filter fun l => l != k := by
  obtain ⟨p, holder, number⟩ := Option.bind_eq_some_iff.mp standing
  obtain ⟨reply, left⟩ := step_forget_eq holder
  constructor
  · rw [reply, decide_eq_decide.mpr (mem_owners_of_number? grounded number)]
  · rw [owners_step s (.forget name) rfl, left]
    refine filterMap_filter_places fun q l owner => ?_
    rw [Bool.eq_iff_iff, bne_iff_ne, bne_iff_ne, not_iff_not]
    constructor
    · rintro rfl
      exact Option.some.inj (owner.symm.trans number)
    · rintro rfl
      exact grounded.single owner number

theorem sublist_owners_step_forget (grounded : Grounded past s) (accounted : Accounted past s)
    (name : String) : (s.step (.forget name)).2.owners.Sublist s.owners := by
  cases holder : s.registry.holder? name with
  | none =>
      rw [step, access_of_holder?_eq_none holder]
  | some p =>
      obtain ⟨k, number⟩ := accounted.held p (Registry.mem_places_of_holder? holder)
      have standing : s.collection? name = some k := (collection?_of_holder? holder).trans number
      rw [(owners_step_forget grounded standing).2]
      exact List.filter_sublist

theorem owners_step_sweep (grounded : Grounded past s) :
    (s.step .sweep).2.owners = s.owners.filter s.lives := by
  rw [owners_step s .sweep rfl, places_step_sweep]
  exact filterMap_filter_places fun p k number => (lives_of_number? grounded.numbered number).symm

theorem reply_sweep (h : Accounted past s) (grounded : Grounded past s) :
    (s.step .sweep).1 = .swept s.leftBehind.length := by
  have after : Accounted (past ++ [⟨s, .sweep⟩]) (s.step .sweep).2 :=
    Accounted.step (m := ⟨s, .sweep⟩) h grounded
  have left : (s.memo.swept s.registry.alive).size = (s.owners.filter s.lives).length := by
    rw [← owners_step_sweep grounded, ← after.size_eq, ← memo_sweep]
    rfl
  have split := s.owners.length_eq_length_filter_add s.lives
  change Reply.swept (s.memo.size - (s.memo.swept s.registry.alive).size) = _
  rw [left, h.size_eq, split, Nat.add_sub_cancel_left, leftBehind]

section Fetch

variable {name : String} {k : Nat}

theorem lives_step_fetch (standing : s.collection? name = some k) :
    (s.step (.fetch name)).2.lives = s.lives := by
  obtain ⟨p, source, holder, -, state⟩ := exists_state?_of_collection? standing
  exact lives_of_keeps (keeps_step rfl) (places_step_fetch holder state).2

theorem lives_of_mem_owners_step_fetch (grounded : Grounded past s)
    (standing : s.collection? name = some k) {l : Nat}
    (owner : l ∈ (s.step (.fetch name)).2.owners) : s.lives l = true := by
  obtain ⟨p, source, holder, number, state⟩ := exists_state?_of_collection? standing
  rw [owners_step s (.fetch name) rfl, (places_step_fetch holder state).1] at owner
  obtain ⟨q, slot, same⟩ := List.mem_filterMap.mp owner
  rcases Memo.mem_places_ready.mp slot with rfl | ⟨-, live⟩
  · exact lives_iff.mpr ⟨q, Registry.mem_places_of_holder? holder, same⟩
  · exact (lives_of_number? grounded.numbered same).trans live

theorem owners_step_fetch (grounded : Grounded past s) (standing : s.collection? name = some k)
    (owner : k ∈ s.owners) : (s.step (.fetch name)).2.owners = s.owners.filter s.lives := by
  obtain ⟨p, source, holder, number, state⟩ := exists_state?_of_collection? standing
  have live := Registry.alive_iff.mpr (Registry.mem_places_of_holder? holder)
  have slot := (mem_owners_of_number? grounded number).mp owner
  rw [owners_step s (.fetch name) rfl, (places_step_fetch holder state).1,
    Memo.places_ready_of_mem live slot]
  exact filterMap_filter_places fun q l same => (lives_of_number? grounded.numbered same).symm

end Fetch

theorem lives_step_sweep (s : Session) : (s.step .sweep).2.lives = s.lives :=
  lives_of_keeps (keeps_step rfl) (congrArg Registry.places s.registry_sweep)

theorem leftBehind_step_sweep (grounded : Grounded past s) : (s.step .sweep).2.leftBehind = [] := by
  refine List.filter_eq_nil_iff.mpr fun k owner => ?_
  rw [owners_step_sweep grounded] at owner
  rw [lives_step_sweep, (List.mem_filter.mp owner).2]
  simp

theorem leftBehind_step_fetch (grounded : Grounded past s) {name : String} {k : Nat}
    (standing : s.collection? name = some k) : (s.step (.fetch name)).2.leftBehind = [] := by
  refine List.filter_eq_nil_iff.mpr fun l owner => ?_
  rw [lives_step_fetch standing, lives_of_mem_owners_step_fetch grounded standing owner]
  simp

theorem lives_step_forget (s : Session) (name : String) :
    (s.step (.forget name)).2.lives = s.lives := by
  refine lives_of_keeps (keeps_step rfl) ?_
  cases holder : s.registry.holder? name with
  | none => rw [step, access_of_holder?_eq_none holder]
  | some p => rw [step, access_of_holder? holder, Option.getD_some, registry_forget]

theorem leftBehind_step_forget (grounded : Grounded past s) {name : String} {k : Nat}
    (standing : s.collection? name = some k) :
    (s.step (.forget name)).2.leftBehind = s.leftBehind := by
  rw [leftBehind, lives_step_forget, (owners_step_forget grounded standing).2, List.filter_filter]
  refine List.filter_congr fun l _ => ?_
  by_cases same : l = k
  · simp [same, lives_of_collection? standing]
  · simp [same]

theorem moments_snoc (s : Session) (steps : List Step) (st : Step) :
    s.moments (steps ++ [st]) = s.moments steps ++ [⟨s.advance steps, st⟩] := by
  induction steps generalizing s with
  | nil => rfl
  | cons first steps ih => exact congrArg (List.cons _) (ih (s.step first).2)

theorem Moment.not_resolves_of_not_fetches {m : Moment} {k : Nat} (h : ¬m.Fetches k) (f : Filed) :
    ¬m.Resolves k f :=
  fun ⟨name, fetched, standing, _⟩ => h ⟨name, fetched, standing⟩

theorem Grounded.holds_of_failed {m : Moment} {k : Nat} {e : RoleFailure}
    (h : Grounded past m.before) (fetches : m.Fetches k) (failed : m.reply = .failed e) :
    m.after.Holds k none := by
  obtain ⟨name, fetched, standing⟩ := fetches
  obtain ⟨p, source, holder, number, state⟩ := exists_state?_of_collection? standing
  have keeps := Moment.keeps (m := m) (by rw [fetched]; rfl)
  refine .of_number? h.step ((keeps.number? p).trans number) ?_
  rw [Moment.reply, fetched] at failed
  cases filed : m.before.memo.filed? p with
  | some f =>
      obtain ⟨v, stepped⟩ := step_fetch_of_filed holder state filed
      rw [stepped] at failed
      cases failed
  | none =>
      obtain ⟨after, x, -, stepped⟩ := step_fetch_of_not_filed holder state filed
      rw [Moment.after, fetched]
      rw [stepped] at failed ⊢
      cases found : source.outcome Search.assignment m.before.world with
      | ok a =>
          rw [found] at failed
          cases failed
      | error e =>
          change (m.before.memo.ready m.before.registry.alive p).filed? p = none
          rw [Memo.filed?_ready, filed, ite_self]

theorem holds_of_failed_last {files : FileSystem} {steps : List Step} {early late : List Moment}
    {m : Moment} {k : Nat} {e : RoleFailure}
    (run : (start files).moments steps = early ++ m :: late) (fetches : m.Fetches k)
    (failed : m.reply = .failed e) (last : ∀ x ∈ late, ¬x.Fetches k) :
    ((start files).advance steps).Holds k none := by
  have longer : (start files).moments (steps ++ [.sweep]) =
      early ++ m :: (late ++ ⟨(start files).advance steps, .sweep⟩ :: []) := by
    rw [moments_snoc, run, List.append_assoc, List.cons_append]
  obtain ⟨rest, rfl, before⟩ := moments_between longer
  have grounded := grounded_before run
  change ((start files).advance steps) = _ at before
  rw [before]
  refine (grounded.holds_of_failed fetches failed).advance_of_idle grounded.step fun x hx => ?_
  exact Moment.not_resolves_of_not_fetches (last x hx)

theorem not_mem_places_advance {p : Nat} (slot : p ∈ s.memo.places) (gone : p ∉ s.registry.places)
    {rest : List Step} (stays : ∀ x ∈ s.moments rest, p ∈ x.after.memo.places) :
    p ∉ (s.advance rest).registry.places := by
  induction rest generalizing s with
  | nil => exact gone
  | cons st rest ih =>
      have now : p ∈ (s.step st).2.memo.places := stays ⟨s, st⟩ (List.mem_cons_self ..)
      exact ih now (fun live => gone (mem_places_of_moves (s.moves_step st) slot live)) fun x hx =>
        stays x (List.mem_cons_of_mem _ hx)

theorem accounting (files : FileSystem) (steps : List Step) :
    let s := (start files).advance steps
    let past := (start files).moments steps
    s.owners.Nodup ∧ s.memo.size = s.owners.length ∧
    (∀ k, s.lives k = true → (k ∈ s.owners ↔ Fetched past k)) ∧
    (∀ name k, s.collection? name = some k →
      (s.step (.forget name)).1 = .forgotten (decide (k ∈ s.owners)) ∧
      k ∉ (s.step (.forget name)).2.owners) ∧
    (∀ early m late k e, past = early ++ m :: late → m.Fetches k → m.reply = .failed e →
      (∀ x ∈ late, ¬x.Fetches k) → ∀ name, s.collection? name = some k →
      (s.step (.peek name)).1 = .peeked none ∧
      (∃ source, s.source? name = some source ∧ (s.step (.fetch name)).1 =
        .ofFetch ((source.outcome Search.assignment s.world).map (Filed.mk s.memo.issued))) ∧
      (k ∈ s.owners → (s.step (.fetch name)).2.owners = s.owners.filter s.lives)) ∧
    (∀ name, ∀ st ∈ [.peek name, .forget name, .sweep], (s.step st).2.owners.Sublist s.owners) ∧
    ((s.step .sweep).1 = .swept s.leftBehind.length ∧
      (s.step .sweep).2.owners = s.owners.filter s.lives) ∧
    (∀ st, st = .sweep ∨ (∃ name k, st = .fetch name ∧ s.collection? name = some k) →
      let after := (s.step st).2
      after.memo.size = after.living.countP fun k => decide (k ∈ after.owners)) ∧
    ∀ p ∈ s.memo.places, p ∉ s.registry.places → ∀ rest,
      (∀ x ∈ s.moments rest, p ∈ x.after.memo.places) → p ∉ (s.advance rest).registry.places := by
  intro s past
  have grounded : Grounded past s := grounded_of_run files steps
  have accounted : Accounted past s := accounted_of_run files steps
  refine ⟨accounted.nodup_owners grounded, accounted.size_eq, fun k live => ?_, ?_, ?_, ?_, ?_, ?_,
    fun p slot gone rest => not_mem_places_advance slot gone⟩
  · exact accounted.mem_owners_iff live
  · intro name k standing
    obtain ⟨reply, left⟩ := owners_step_forget grounded standing
    refine ⟨reply, ?_⟩
    rw [left]
    simp
  · intro early m late k e run fetches failed last name standing
    have held := holds_of_failed_last run fetches failed last
    obtain ⟨source, found⟩ := source?_of_collection? standing
    refine ⟨?_, ⟨source, found, ?_⟩, owners_step_fetch grounded standing⟩
    · exact (held.reply_peek (m := ⟨s, .peek name⟩) rfl standing).1
    · rcases reply_fetch found with ⟨f, filed, -⟩ | ⟨-, reply⟩
      · cases (held.filed?_eq standing).symm.trans filed
      · exact reply
  · intro name st hst
    simp only [List.mem_cons, List.not_mem_nil, or_false] at hst
    rcases hst with rfl | rfl | rfl
    · exact owners_step_peek s name ▸ List.Sublist.refl _
    · exact sublist_owners_step_forget grounded accounted name
    · exact owners_step_sweep grounded ▸ List.filter_sublist
  · exact ⟨reply_sweep accounted grounded, owners_step_sweep grounded⟩
  · intro st access
    have size := (Accounted.step (m := ⟨s, st⟩) accounted grounded).size_eq_add
      (Grounded.step (m := ⟨s, st⟩) grounded)
    have none : (s.step st).2.leftBehind = [] := by
      rcases access with rfl | ⟨name, k, rfl, standing⟩
      · exact leftBehind_step_sweep grounded
      · exact leftBehind_step_fetch grounded standing
    change (s.step st).2.memo.size = _ + (s.step st).2.leftBehind.length at size
    rwa [none, List.length_nil, Nat.add_zero] at size

theorem Moment.not_fetches_of_collection? {m : Moment} {k : Nat} (h : m.collection? ≠ some k) :
    ¬m.Fetches k := by
  rintro ⟨name, fetched, standing⟩
  refine h ?_
  rw [Moment.collection?_eq (by rw [fetched]; rfl), standing]

def failedThenGone : List Step :=
  [.create 0 "failing" [soleAuthority] (some 0) ⟨"down"⟩, .fetch "failing",
    .list 0 "other" [soleAuthority], .fetch "other", .drop "other"]

def failedFetch : Moment :=
  ⟨(start (.bare [])).advance (failedThenGone.take 1), .fetch "failing"⟩

theorem not_fetches_after_failedFetch :
    ∀ x ∈ failedFetch.after.moments (failedThenGone.drop 2), ¬x.Fetches 0 := by
  have others : ∀ x ∈ failedFetch.after.moments (failedThenGone.drop 2), x.collection? ≠ some 0 := by
    decide
  exact fun x hx => Moment.not_fetches_of_collection? (others x hx)

-- The slot of the failed fetch is used again, and the one left behind is swept.
theorem accounting_of_retry :
    let s := (start (.bare [])).advance failedThenGone
    s.memo.size = 2 ∧ (s.step (.peek "failing")).1 = .peeked none ∧
      (s.step (.fetch "failing")).2.owners = [0] := by
  intro s
  obtain ⟨-, size, -, -, retry, -⟩ := accounting (.bare []) failedThenGone
  obtain ⟨peeked, -, left⟩ := retry [⟨start (.bare []), _⟩] failedFetch _ 0 (.query ⟨"down"⟩) rfl
    ⟨"failing", rfl, rfl⟩ rfl not_fetches_after_failedFetch "failing" rfl
  exact ⟨size, peeked, left (by decide)⟩

-- It would be so if fetching did not sweep.
theorem not_same_size_at_retry :
    ¬∀ (files : FileSystem) (steps : List Step) (early late : List Moment) (m : Moment) (k : Nat)
      (e : RoleFailure), (start files).moments steps = early ++ m :: late → m.Fetches k →
      m.reply = .failed e → (∀ x ∈ late, ¬x.Fetches k) →
      ∀ name, ((start files).advance steps).collection? name = some k →
      k ∈ ((start files).advance steps).owners →
      (((start files).advance steps).step (.fetch name)).2.memo.size =
        ((start files).advance steps).memo.size := by
  intro same
  have kept := same (.bare []) failedThenGone [⟨start (.bare []), _⟩] _ failedFetch 0
    (.query ⟨"down"⟩) rfl ⟨"failing", rfl, rfl⟩ rfl not_fetches_after_failedFetch "failing" rfl
    (by decide)
  exact absurd kept (by decide)

def IsAccess (s : Session) (st : Step) : Prop :=
  st = .sweep ∨ ∃ name k, st.name? = some name ∧ s.collection? name = some k

def Step.sweeps : Step → Bool
  | .fetch _ | .sweep => true
  | _ => false

theorem leftBehind_of_access (files : FileSystem) (steps : List Step) (st : Step)
    (access : ((start files).advance steps).IsAccess st) :
    let s := (start files).advance steps
    let after := (s.step st).2
    after.leftBehind = (if st.sweeps then [] else s.leftBehind) ∧
      after.memo.size =
        (after.living.countP fun k => decide (k ∈ after.owners)) + after.leftBehind.length := by
  intro s after
  have grounded : Grounded _ s := grounded_of_run files steps
  have accounted : Accounted _ s := accounted_of_run files steps
  refine ⟨?_, (Accounted.step (m := ⟨s, st⟩) accounted grounded).size_eq_add
    (Grounded.step (m := ⟨s, st⟩) grounded)⟩
  rcases access with rfl | ⟨name, k, named, standing⟩
  · exact leftBehind_step_sweep grounded
  · cases st with
    | fetch other =>
        obtain rfl : other = name := Option.some.inj named
        exact leftBehind_step_fetch grounded standing
    | peek other => exact congrArg leftBehind (step_peek_snd s other)
    | forget other =>
        obtain rfl : other = name := Option.some.inj named
        exact leftBehind_step_forget grounded standing
    | _ => cases named

theorem leftBehind_of_forget :
    let s := (start (.bare [])).advance failedThenGone
    s.IsAccess (.forget "failing") ∧ (s.step (.forget "failing")).2.leftBehind = [1] := by
  intro s
  have access : s.IsAccess (.forget "failing") := .inr ⟨"failing", 0, rfl, rfl⟩
  obtain ⟨left, -⟩ := leftBehind_of_access (.bare []) failedThenGone (.forget "failing") access
  exact ⟨access, left.trans (by decide)⟩

theorem not_swept_by_every_access :
    ¬∀ (files : FileSystem) (steps : List Step) (st : Step),
      ((start files).advance steps).IsAccess st →
      ∀ k ∈ (((start files).advance steps).step st).2.owners,
        (((start files).advance steps).step st).2.lives k = true := by
  intro swept
  have peeked := swept (.bare []) failedThenGone (.peek "failing")
    (.inr ⟨"failing", 0, rfl, rfl⟩) 1 (by decide)
  exact absurd peeked (by decide)

end TrustRoles.Session
