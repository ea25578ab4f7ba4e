import Mathlib.Data.List.Nodup
import TrustRoles.Proofs.Session.Stability

namespace TrustRoles

namespace Session

def owners (s : Session) : List Nat :=
  s.memo.places.filterMap s.registry.number?

def lives (s : Session) (k : Nat) : Bool :=
  s.registry.places.any fun p => s.registry.number? p == some k

def leftBehind (s : Session) : List Nat :=
  s.owners.filter fun k => !s.lives k

def living (s : Session) : List Nat :=
  (List.range s.registry.next).filter s.lives

def Moment.Fetches (m : Moment) (k : Nat) : Prop :=
  ∃ name, m.step = .fetch name ∧ m.before.collection? name = some k

def Moment.Clears (m : Moment) (k : Nat) : Prop :=
  m.Forgets k ∧ m.reply = .forgotten true

def Fetched (past : List Moment) (k : Nat) : Prop :=
  ∃ early m late, past = early ++ m :: late ∧ m.Fetches k ∧ ∀ x ∈ late, ¬x.Clears k

theorem Moment.not_fetches {m : Moment} (h : ∀ name, m.step ≠ .fetch name) (k : Nat) :
    ¬m.Fetches k :=
  fun ⟨name, fetched, _⟩ => h name fetched

theorem Moment.not_clears {m : Moment} (h : ∀ name, m.step ≠ .forget name) (k : Nat) :
    ¬m.Clears k :=
  fun ⟨⟨name, forgot, _⟩, _⟩ => h name forgot

theorem mem_owners {s : Session} {k : Nat} :
    k ∈ s.owners ↔ ∃ p ∈ s.memo.places, s.registry.number? p = some k :=
  List.mem_filterMap

theorem lives_iff {s : Session} {k : Nat} :
    s.lives k = true ↔ ∃ p ∈ s.registry.places, s.registry.number? p = some k := by
  simp [lives]

theorem lives_of_collection? {s : Session} {name : String} {k : Nat}
    (h : s.collection? name = some k) : s.lives k = true := by
  obtain ⟨p, holder, number⟩ := Option.bind_eq_some_iff.mp h
  exact lives_iff.mpr ⟨p, Registry.mem_places_of_holder? holder, number⟩

theorem fetched_snoc {past : List Moment} {m : Moment} {k : Nat} :
    Fetched (past ++ [m]) k ↔ m.Fetches k ∨ Fetched past k ∧ ¬m.Clears k := by
  constructor
  · rintro ⟨early, n, late, split, fetches, kept⟩
    rcases late.eq_nil_or_concat' with rfl | ⟨init, last, rfl⟩
    · obtain ⟨-, same⟩ := List.append_inj' split rfl
      obtain rfl : m = n := (List.cons.inj same).1
      exact .inl fetches
    · have snoc : past ++ [m] = (early ++ n :: init) ++ [last] := by simpa using split
      obtain ⟨rfl, same⟩ := List.append_inj' snoc rfl
      obtain rfl : m = last := (List.cons.inj same).1
      refine .inr ⟨⟨early, n, init, rfl, fetches, fun x hx => ?_⟩, ?_⟩
      · exact kept x (List.mem_append_left _ hx)
      · exact kept m (List.mem_append_right _ (List.mem_singleton_self m))
  · rintro (fetches | ⟨⟨early, n, late, rfl, fetches, kept⟩, uncleared⟩)
    · exact ⟨past, m, [], rfl, fetches, fun x hx => by cases hx⟩
    · refine ⟨early, n, late ++ [m], by simp, fetches, fun x hx => ?_⟩
      rcases List.mem_append.mp hx with old | new
      · exact kept x old
      · exact List.mem_singleton.mp new ▸ uncleared

theorem exists_state?_of_collection? {s : Session} {name : String} {k : Nat}
    (h : s.collection? name = some k) : ∃ p source, s.registry.holder? name = some p ∧
      s.registry.number? p = some k ∧ s.registry.state? p = some source := by
  obtain ⟨p, holder, number⟩ := Option.bind_eq_some_iff.mp h
  obtain ⟨source, found⟩ := source?_of_collection? h
  rw [source?, holder, Option.bind_some] at found
  exact ⟨p, source, holder, number, found⟩

theorem places_step_fetch {s : Session} {name : String} {p : Nat} {source : Source}
    (holder : s.registry.holder? name = some p) (state : s.registry.state? p = some source) :
    (s.step (.fetch name)).2.memo.places = (s.memo.ready s.registry.alive p).places ∧
      (s.step (.fetch name)).2.registry.places = s.registry.places := by
  cases filed : s.memo.filed? p with
  | some f =>
      obtain ⟨v, stepped⟩ := step_fetch_of_filed holder state filed
      rw [stepped]
      exact ⟨rfl, rfl⟩
  | none =>
      obtain ⟨after, x, -, stepped⟩ := step_fetch_of_not_filed holder state filed
      rw [stepped]
      exact ⟨Memo.places_settled .., rfl⟩

theorem step_forget_eq {s : Session} {name : String} {p : Nat}
    (holder : s.registry.holder? name = some p) :
    (s.step (.forget name)).1 = .forgotten (decide (p ∈ s.memo.places)) ∧
      (s.step (.forget name)).2.memo.places = s.memo.places.filter fun q => q != p := by
  have live := Registry.alive_iff.mpr (Registry.mem_places_of_holder? holder)
  obtain ⟨found, left⟩ := Memo.forget_eq live s.memo
  rw [step, access_of_holder? holder, Option.getD_some, memo_forget]
  exact ⟨congrArg Reply.forgotten found, left⟩

theorem step_peek_snd (s : Session) (name : String) : (s.step (.peek name)).2 = s := by
  cases holder : s.registry.holder? name with
  | none => rw [step, access_of_holder?_eq_none holder]
  | some p => rw [step, access_of_holder? holder, Option.getD_some]

theorem memo_step_failFrom (s : Session) (name : String) (n : Option Nat) :
    (s.step (.failFrom name n)).2.memo = s.memo := by
  cases holder : s.registry.holder? name with
  | none => rw [step, access_of_holder?_eq_none holder]
  | some p =>
      rw [step, access_of_holder? holder, Option.getD_some]
      rfl

theorem places_step_sweep (s : Session) :
    (s.step .sweep).2.memo.places = s.memo.places.filter s.registry.alive := by
  change s.sweep.2.memo.places = _
  rw [memo_sweep, Memo.places_swept]

/-- The slots owed to the steps taken so far: one for each collection fetched from and not cleared,
as long as it lives, and none for any other. -/
structure Accounted (past : List Moment) (s : Session) : Prop where
  held : ∀ p ∈ s.registry.places, ∃ k, s.registry.number? p = some k
  below : ∀ k, Fetched past k → k < s.registry.next
  single : s.memo.places.Nodup
  owned : ∀ p ∈ s.memo.places, ∃ k, s.registry.number? p = some k ∧ Fetched past k
  owed : ∀ p ∈ s.registry.places, ∀ k, s.registry.number? p = some k → Fetched past k →
    p ∈ s.memo.places

namespace Accounted

variable {past : List Moment} {m : Moment}

theorem start (files : FileSystem) : Accounted [] (start files) where
  held p hp := by cases hp
  below k fetched := by
    obtain ⟨early, m, late, split, -⟩ := fetched
    simp at split
  single := List.nodup_nil
  owned p hp := by cases hp
  owed p hp := by cases hp

theorem lt_next (h : Accounted past m.before) (grounded : Grounded past m.before) {k : Nat}
    (fetched : Fetched (past ++ [m]) k) : k < m.before.registry.next := by
  rcases fetched_snoc.mp fetched with ⟨name, -, collection⟩ | ⟨old, -⟩
  · obtain ⟨p, -, number⟩ := Option.bind_eq_some_iff.mp collection
    exact grounded.below number
  · exact h.below k old

theorem keep {after : Session} (h : Accounted past m.before) (grounded : Grounded past m.before)
    (keeps : m.before.Keeps after) (single : after.memo.places.Nodup)
    (known : ∀ p ∈ after.memo.places, p ∈ m.before.memo.places ∨ p ∈ m.before.registry.places)
    (owned : ∀ p ∈ after.memo.places, ∀ k, m.before.registry.number? p = some k →
      m.Fetches k ∨ p ∈ m.before.memo.places ∧ ¬m.Clears k)
    (owed : ∀ p ∈ m.before.registry.places, ∀ k, m.before.registry.number? p = some k →
      m.Fetches k ∨ p ∈ m.before.memo.places ∧ ¬m.Clears k → p ∈ after.memo.places) :
    Accounted (past ++ [m]) after where
  held p hp := by
    obtain ⟨k, number⟩ := h.held p (keeps.places hp)
    exact ⟨k, (keeps.number? p).trans number⟩
  below k fetched := keeps.next ▸ h.lt_next grounded fetched
  single := single
  owned p hp := by
    obtain ⟨k, number⟩ : ∃ k, m.before.registry.number? p = some k := by
      rcases known p hp with old | held
      · obtain ⟨k, number, -⟩ := h.owned p old
        exact ⟨k, number⟩
      · exact h.held p held
    refine ⟨k, (keeps.number? p).trans number, fetched_snoc.mpr ?_⟩
    refine (owned p hp k number).imp_right fun ⟨old, uncleared⟩ => ⟨?_, uncleared⟩
    obtain ⟨l, same, fetched⟩ := h.owned p old
    rwa [Option.some.inj (number.symm.trans same)]
  owed p hp k number fetched := by
    rw [keeps.number?] at number
    refine owed p (keeps.places hp) k number ((fetched_snoc.mp fetched).imp_right ?_)
    exact fun ⟨old, uncleared⟩ => ⟨h.owed p (keeps.places hp) k number old, uncleared⟩

theorem keep_memo {after : Session} (h : Accounted past m.before)
    (grounded : Grounded past m.before) (keeps : m.before.Keeps after)
    (memo : after.memo = m.before.memo) (unfetched : ∀ k, ¬m.Fetches k)
    (uncleared : ∀ k, ¬m.Clears k) : Accounted (past ++ [m]) after := by
  refine h.keep grounded keeps ?_ ?_ ?_ ?_
  · exact memo ▸ h.single
  · exact fun p hp => .inl (memo ▸ hp)
  · exact fun p hp k _ => .inr ⟨memo ▸ hp, uncleared k⟩
  · exact fun p _ k _ standing => memo ▸ (standing.resolve_left (unfetched k)).1

theorem create (h : Accounted past m.before) (grounded : Grounded past m.before) (wish : Nat)
    (name : String) (make : Nat → Source) (unfetched : ∀ k, ¬m.Fetches k)
    (uncleared : ∀ k, ¬m.Clears k) : Accounted (past ++ [m]) (m.before.holdNear wish name make) where
  held p hp := by
    by_cases new : p = m.before.vacant wish
    · exact ⟨m.before.registry.next, (Registry.number?_hold ..).trans (if_pos new)⟩
    · obtain ⟨k, number⟩ := h.held p ((Registry.mem_places_bind hp).resolve_left new)
      exact ⟨k, (number?_holdNear_of_ne new name make).trans number⟩
  below k fetched := Nat.lt_succ_of_lt (h.lt_next grounded fetched)
  single := h.single
  owned p hp := by
    obtain ⟨k, number, fetched⟩ := h.owned p hp
    -- the place of a slot is not vacant, so whose it is does not change
    have other : p ≠ m.before.vacant wish := by
      rintro rfl
      exact (m.before.vacant_not_mem wish).2 hp
    exact ⟨k, (number?_holdNear_of_ne other name make).trans number,
      fetched_snoc.mpr (.inr ⟨fetched, uncleared k⟩)⟩
  owed p hp k number fetched := by
    have old := ((fetched_snoc.mp fetched).resolve_left (unfetched k)).1
    rcases number?_holdNear number with ⟨-, rfl⟩ | ⟨other, number⟩
    · exact absurd (h.below _ old) (Nat.lt_irrefl _)
    · exact h.owed p ((Registry.mem_places_bind hp).resolve_left other) k number old

theorem fetch (h : Accounted past m.before) (grounded : Grounded past m.before) {name : String}
    (fetched : m.step = .fetch name) : Accounted (past ++ [m]) m.after := by
  have uncleared := Moment.not_clears (m := m) (by simp [fetched])
  have keeps := Moment.keeps (m := m) (by rw [fetched]; rfl)
  cases holder : m.before.registry.holder? name with
  | none =>
      have idle : m.after = m.before := by
        rw [Moment.after, fetched, Session.step, access_of_holder?_eq_none holder]
      refine h.keep_memo grounded keeps (by rw [idle]) (fun k => ?_) uncleared
      rintro ⟨other, same, collection⟩
      obtain rfl : name = other := by simpa using fetched.symm.trans same
      rw [Session.collection?, holder] at collection
      cases collection
  | some p =>
      have live := Registry.mem_places_of_holder? holder
      obtain ⟨k, number⟩ := h.held p live
      have standing : m.before.collection? name = some k :=
        (collection?_of_holder? holder).trans number
      obtain ⟨q, source, same, -, state⟩ := exists_state?_of_collection? standing
      obtain rfl : p = q := Option.some.inj (holder.symm.trans same)
      have slots : m.after.memo.places =
          (m.before.memo.ready m.before.registry.alive p).places := by
        rw [Moment.after, fetched, (places_step_fetch holder state).1]
      refine h.keep grounded keeps ?_ ?_ ?_ ?_
      · rw [slots]
        exact Memo.nodup_places_ready h.single _ p
      · intro q hq
        rw [slots, Memo.mem_places_ready] at hq
        rcases hq with rfl | ⟨old, -⟩
        · exact .inr live
        · exact .inl old
      · intro q hq l hl
        rw [slots, Memo.mem_places_ready] at hq
        rcases hq with rfl | ⟨old, -⟩
        · obtain rfl : k = l := Option.some.inj (number.symm.trans hl)
          exact .inl ⟨name, fetched, standing⟩
        · exact .inr ⟨old, uncleared l⟩
      · intro q hq l hl standing'
        rw [slots, Memo.mem_places_ready]
        rcases standing' with ⟨other, same, collection⟩ | ⟨old, -⟩
        · obtain rfl : name = other := by simpa using fetched.symm.trans same
          obtain rfl : k = l := Option.some.inj (standing.symm.trans collection)
          exact .inl (grounded.single hl number)
        · exact .inr ⟨old, Registry.alive_iff.mpr hq⟩

theorem forget (h : Accounted past m.before) (grounded : Grounded past m.before) {name : String}
    (forgot : m.step = .forget name) : Accounted (past ++ [m]) m.after := by
  have unfetched := Moment.not_fetches (m := m) (by simp [forgot])
  have keeps := Moment.keeps (m := m) (by rw [forgot]; rfl)
  cases holder : m.before.registry.holder? name with
  | none =>
      have idle : m.after = m.before := by
        rw [Moment.after, forgot, Session.step, access_of_holder?_eq_none holder]
      refine h.keep_memo grounded keeps (by rw [idle]) unfetched fun k => ?_
      rintro ⟨⟨other, same, collection⟩, -⟩
      obtain rfl : name = other := by simpa using forgot.symm.trans same
      rw [Session.collection?, holder] at collection
      cases collection
  | some p =>
      obtain ⟨k, number⟩ := h.held p (Registry.mem_places_of_holder? holder)
      have standing : m.before.collection? name = some k :=
        (collection?_of_holder? holder).trans number
      obtain ⟨reply, slots⟩ := step_forget_eq holder
      have left : m.after.memo.places = m.before.memo.places.filter fun q => q != p := by
        rw [Moment.after, forgot, slots]
      have clears : ∀ l, m.Clears l ↔ l = k ∧ p ∈ m.before.memo.places := by
        intro l
        have found : m.reply = .forgotten true ↔ p ∈ m.before.memo.places := by
          rw [Moment.reply, forgot, reply]
          simp
        rw [Moment.Clears, found]
        refine and_congr_left fun _ => ⟨?_, ?_⟩
        · rintro ⟨other, same, collection⟩
          obtain rfl : name = other := by simpa using forgot.symm.trans same
          exact Option.some.inj (collection.symm.trans standing)
        · rintro rfl
          exact ⟨name, forgot, standing⟩
      refine h.keep grounded keeps ?_ ?_ ?_ ?_
      · exact left ▸ h.single.filter _
      · exact fun q hq => .inl (List.mem_filter.mp (left ▸ hq)).1
      · intro q hq l hl
        rw [left, List.mem_filter, bne_iff_ne] at hq
        refine .inr ⟨hq.1, fun cleared => hq.2 ?_⟩
        obtain ⟨rfl, -⟩ := (clears l).mp cleared
        exact grounded.single hl number
      · intro q hq l hl standing'
        obtain ⟨old, uncleared⟩ := standing'.resolve_left (unfetched l)
        rw [left, List.mem_filter, bne_iff_ne]
        refine ⟨old, ?_⟩
        rintro rfl
        exact uncleared ((clears l).mpr ⟨Option.some.inj (hl.symm.trans number), old⟩)

theorem sweep (h : Accounted past m.before) (grounded : Grounded past m.before)
    (swept : m.step = .sweep) : Accounted (past ++ [m]) m.after := by
  have unfetched := Moment.not_fetches (m := m) (by simp [swept])
  have uncleared := Moment.not_clears (m := m) (by simp [swept])
  have keeps := Moment.keeps (m := m) (by rw [swept]; rfl)
  have left : m.after.memo.places = m.before.memo.places.filter m.before.registry.alive := by
    rw [Moment.after, swept, places_step_sweep]
  refine h.keep grounded keeps ?_ ?_ ?_ ?_
  · exact left ▸ h.single.filter _
  · exact fun q hq => .inl (List.mem_filter.mp (left ▸ hq)).1
  · exact fun q hq l _ => .inr ⟨(List.mem_filter.mp (left ▸ hq)).1, uncleared l⟩
  · intro q hq l _ standing
    rw [left]
    exact List.mem_filter.mpr ⟨(standing.resolve_left (unfetched l)).1, Registry.alive_iff.mpr hq⟩

theorem step (h : Accounted past m.before) (grounded : Grounded past m.before) :
    Accounted (past ++ [m]) m.after := by
  have aside (members : m.step.members? = none) (memo : m.after.memo = m.before.memo)
      (unfetched : ∀ name, m.step ≠ .fetch name) (uncleared : ∀ name, m.step ≠ .forget name) :
      Accounted (past ++ [m]) m.after :=
    h.keep_memo grounded (Moment.keeps members) memo (Moment.not_fetches unfetched)
      (Moment.not_clears uncleared)
  have made (wish : Nat) (name : String) (make : Nat → Source)
      (created : m.after = m.before.holdNear wish name make)
      (unfetched : ∀ name, m.step ≠ .fetch name) (uncleared : ∀ name, m.step ≠ .forget name) :
      Accounted (past ++ [m]) m.after :=
    created ▸ h.create grounded wish name make (Moment.not_fetches unfetched)
      (Moment.not_clears uncleared)
  cases hm : m.step with
  | create wish name members failsFrom failure =>
      exact made wish name _ (by rw [Moment.after, hm]; rfl) (by simp [hm]) (by simp [hm])
  | list wish name members =>
      exact made wish name _ (by rw [Moment.after, hm]; rfl) (by simp [hm]) (by simp [hm])
  | share name other =>
      exact aside (by rw [hm]; rfl) (by rw [Moment.after, hm]; rfl) (by simp [hm]) (by simp [hm])
  | drop name =>
      exact aside (by rw [hm]; rfl) (by rw [Moment.after, hm]; rfl) (by simp [hm]) (by simp [hm])
  | failFrom name n =>
      refine aside (by rw [hm]; rfl) ?_ (by simp [hm]) (by simp [hm])
      rw [Moment.after, hm]
      exact memo_step_failFrom ..
  | peek name =>
      refine aside (by rw [hm]; rfl) ?_ (by simp [hm]) (by simp [hm])
      rw [Moment.after, hm, step_peek_snd]
  | fetch name => exact h.fetch grounded hm
  | forget name => exact h.forget grounded hm
  | sweep => exact h.sweep grounded hm

theorem advance {s : Session} (h : Accounted past s) (grounded : Grounded past s)
    (steps : List Step) : Accounted (past ++ s.moments steps) (s.advance steps) := by
  induction steps generalizing past s with
  | nil => exact (List.append_nil past).symm ▸ h
  | cons st steps ih =>
      have now : Accounted (past ++ [⟨s, st⟩]) (s.step st).2 := step (m := ⟨s, st⟩) h grounded
      have later := ih now (Grounded.step (m := ⟨s, st⟩) grounded)
      rwa [List.append_assoc] at later

end Accounted

theorem accounted_of_run (files : FileSystem) (steps : List Step) :
    Accounted ((start files).moments steps) ((start files).advance steps) :=
  (Accounted.start files).advance (Grounded.start files) steps

end Session

end TrustRoles
