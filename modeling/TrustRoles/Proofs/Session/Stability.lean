import TrustRoles.Proofs.Session.Provenance

namespace TrustRoles.Session

def Moment.Forgets (m : Moment) (k : Nat) : Prop :=
  ∃ name, m.step = .forget name ∧ m.before.collection? name = some k

def Moment.IsSilent (m : Moment) : Prop :=
  ∀ name p, m.step = .fetch name → m.before.registry.holder? name = some p →
    (m.before.memo.fetch m.before.registry.alive p).IsSilent

theorem Moment.collection?_eq {m : Moment} {name : String} (h : m.step.name? = some name) :
    m.collection? = m.before.collection? name := by
  rw [Moment.collection?, h, Option.bind_some]

-- The collection may have no name left: then nothing is said, and nothing can be asked of it.
structure Holds (s : Session) (k : Nat) (found : Option Filed) : Prop where
  known : k < s.registry.next
  filed : ∀ p ∈ s.registry.places, s.registry.number? p = some k → s.memo.filed? p = found

namespace Holds

variable {s : Session} {m : Moment} {k : Nat} {f : Filed} {found : Option Filed}

theorem of_number? {past : List Moment} (h : Grounded past s) {p : Nat}
    (hk : s.registry.number? p = some k) (hf : s.memo.filed? p = found) : s.Holds k found where
  known := h.below hk
  filed q _ hq := by rw [h.single hq hk, hf]

theorem filed?_eq (h : s.Holds k found) {name : String} (hk : s.collection? name = some k) :
    s.filed? name = found := by
  obtain ⟨p, holder, number⟩ := Option.bind_eq_some_iff.mp hk
  rw [filed?_of_holder? holder, h.filed p (Registry.mem_places_of_holder? holder) number]

theorem not_resolves (h : m.before.Holds k (some f)) (g : Filed) : ¬m.Resolves k g := by
  rintro ⟨name, -, collection, fresh, -⟩
  rw [h.filed?_eq collection] at fresh
  cases fresh

theorem after (h : m.before.Holds k found) (kept : ¬m.Forgets k) (idle : ∀ f, ¬m.Resolves k f) :
    m.after.Holds k found := by
  have effect := m.effect
  generalize hm : m.step = st, hr : m.reply = reply, m.after = after at effect
  cases effect with
  -- a new collection has a number of its own, whatever place it takes
  | create wish name made answers =>
      refine ⟨Nat.lt_succ_of_lt h.known, fun p hp hk => ?_⟩
      rcases number?_holdNear hk with ⟨-, rfl⟩ | ⟨other, hk⟩
      · exact absurd h.known (Nat.lt_irrefl _)
      · exact h.filed p ((Registry.mem_places_bind hp).resolve_left other) hk
  | keep keeps members issued filed told =>
      refine ⟨keeps.next ▸ h.known, fun p hp hk => ?_⟩
      rw [keeps.number?] at hk
      have live := keeps.places hp
      rcases filed p with same | ⟨-, gone | ⟨-, name, forgot, holder⟩⟩
      · rw [same, h.filed p live hk]
      · exact absurd live gone
      · exact absurd ⟨name, hm.trans forgot, (collection?_of_holder? holder).trans hk⟩ kept
  | @assign name p source a _ holder state fresh found keeps issued settled filed =>
      refine ⟨keeps.next ▸ h.known, fun q hq hk => ?_⟩
      rw [keeps.number?] at hk
      have live := keeps.places hq
      -- the only slot that is written belongs to the collection that was searched
      have other : q ≠ p := by
        rintro rfl
        exact idle _ ⟨name, hm, (collection?_of_holder? holder).trans hk,
          (filed?_of_holder? holder).trans fresh, hr⟩
      rcases filed q other with same | ⟨-, gone⟩
      · rw [same, h.filed q live hk]
      · exact absurd live gone

end Holds

theorem filed?_step_forget {s : Session} {name : String} {p : Nat}
    (holder : s.registry.holder? name = some p) :
    (s.step (.forget name)).2.memo.filed? p = none := by
  have live := Registry.alive_iff.mpr (Registry.mem_places_of_holder? holder)
  rw [step, access_of_holder? holder, Option.getD_some, memo_forget, Memo.filed?_forget live,
    if_pos rfl]

theorem Grounded.holds_of_forgets {past : List Moment} {m : Moment} {k : Nat}
    (h : Grounded past m.before) (hm : m.Forgets k) : m.after.Holds k none := by
  obtain ⟨name, forgot, collection⟩ := hm
  obtain ⟨p, holder, number⟩ := Option.bind_eq_some_iff.mp collection
  have keeps := Moment.keeps (m := m) (by rw [forgot]; rfl)
  refine .of_number? h.step ((keeps.number? p).trans number) ?_
  rw [Moment.after, forgot]
  exact filed?_step_forget holder

theorem Grounded.holds_of_returned {past : List Moment} {m : Moment} {k : Nat} {f : Filed}
    (h : Grounded past m.before) (hk : m.collection? = some k) (hf : m.returned? = some f) :
    m.after.Holds k (some f) := by
  have grounded := h.step
  have effect := m.effect
  obtain ⟨name, named, standing⟩ := Option.bind_eq_some_iff.mp hk
  generalize hm : m.step = st, hr : m.reply = reply, m.after = after at effect grounded
  rw [Moment.returned?, hr] at hf
  rw [hm] at named
  cases effect with
  | create wish name made answers => cases hf
  | keep keeps members issued filed told =>
      obtain ⟨other, p, same, holder, found⟩ := told f hf
      obtain rfl : name = other := Option.some.inj (named.symm.trans same)
      rw [collection?_of_holder? holder] at standing
      refine .of_number? grounded ((keeps.number? p).trans standing) ?_
      rcases filed p with same | ⟨-, gone | ⟨silent, -⟩⟩
      · exact same.trans found
      · exact absurd (Registry.mem_places_of_holder? holder) gone
      · cases silent.symm.trans hf
  | assign holder state fresh found keeps issued settled filed =>
      obtain rfl := Option.some.inj named
      obtain rfl := Option.some.inj hf
      rw [collection?_of_holder? holder] at standing
      exact .of_number? grounded ((keeps.number? _).trans standing) settled

namespace Holds

variable {s : Session} {m : Moment} {k : Nat} {f : Filed} {found : Option Filed}

theorem advance_of_kept (h : s.Holds k (some f)) {steps : List Step}
    (kept : ∀ m ∈ s.moments steps, ¬m.Forgets k) : (s.advance steps).Holds k (some f) := by
  induction steps generalizing s with
  | nil => exact h
  | cons st steps ih =>
      have now : (Moment.mk s st).after.Holds k (some f) :=
        after (m := ⟨s, st⟩) h (kept _ (List.mem_cons_self ..)) (not_resolves (m := ⟨s, st⟩) h)
      exact ih now fun m hm => kept m (List.mem_cons_of_mem _ hm)

theorem advance_of_idle {past : List Moment} (grounded : Grounded past s) (h : s.Holds k none)
    {steps : List Step} (idle : ∀ m ∈ s.moments steps, ∀ f, ¬m.Resolves k f) :
    (s.advance steps).Holds k none := by
  induction steps generalizing past s with
  | nil => exact h
  | cons st steps ih =>
      have now : (Moment.mk s st).after.Holds k none := by
        by_cases forgets : (Moment.mk s st).Forgets k
        · exact Grounded.holds_of_forgets (m := ⟨s, st⟩) grounded forgets
        · exact after (m := ⟨s, st⟩) h forgets (idle _ (List.mem_cons_self ..))
      have next : Grounded (past ++ [⟨s, st⟩]) (Moment.mk s st).after :=
        Grounded.step (m := ⟨s, st⟩) grounded
      exact ih next now fun m hm => idle m (List.mem_cons_of_mem _ hm)

theorem reply_peek (h : m.before.Holds k found) {name : String} (hm : m.step = .peek name)
    (hk : m.before.collection? name = some k) : m.reply = .peeked found ∧ m.after = m.before := by
  obtain ⟨p, holder, -⟩ := Option.bind_eq_some_iff.mp hk
  have stepped : m.before.step m.step = (.peeked found, m.before) := by
    have peeked : m.before.peek p = found := by
      rw [← h.filed?_eq hk, filed?, holder, Option.bind_some]
    rw [hm, step, access_of_holder? holder, peeked, Option.getD_some]
  exact ⟨congrArg Prod.fst stepped, congrArg Prod.snd stepped⟩

theorem filed?_of_holder? (h : m.before.Holds k found) {name : String} {p : Nat}
    (hk : m.before.collection? name = some k) (holder : m.before.registry.holder? name = some p) :
    m.before.memo.filed? p = found := by
  rw [← Session.filed?_of_holder? holder, h.filed?_eq hk]

theorem isSilent (h : m.before.Holds k (some f)) {name : String} (hm : m.step = .fetch name)
    (hk : m.before.collection? name = some k) : m.IsSilent := by
  intro other p fetched holder
  obtain rfl : name = other := by simpa using hm.symm.trans fetched
  have live := Registry.alive_iff.mpr (Registry.mem_places_of_holder? holder)
  exact Memo.isSilent_fetch_of_filed live (h.filed?_of_holder? hk holder)

theorem reply_fetch (h : m.before.Holds k (some f)) {name : String} (hm : m.step = .fetch name)
    (hk : m.before.collection? name = some k) :
    m.reply = .assigned f ∧ m.after.source? = m.before.source? := by
  obtain ⟨p, holder, -⟩ := Option.bind_eq_some_iff.mp hk
  obtain ⟨source, standing⟩ := source?_of_collection? hk
  have state : m.before.registry.state? p = some source := by
    rwa [source?, holder, Option.bind_some] at standing
  obtain ⟨v, stepped⟩ := step_fetch_of_filed holder state (h.filed?_of_holder? hk holder)
  rw [← hm] at stepped
  refine ⟨congrArg Prod.fst stepped, ?_⟩
  rw [Moment.after, stepped]
  funext other
  exact congrArg (Option.bind _) (Registry.state?_update_of_state? state)

end Holds

theorem Moment.Resolves.number_eq {m : Moment} {k : Nat} {f : Filed} (h : m.Resolves k f) :
    f.number = m.before.memo.issued := by
  obtain ⟨name, fetched, collection, fresh, assigned⟩ := h
  obtain ⟨source, standing⟩ := source?_of_collection? collection
  rw [Moment.reply, fetched] at assigned
  rcases reply_fetch standing with ⟨g, filed, -⟩ | ⟨-, reply⟩
  · cases fresh.symm.trans filed
  · rw [reply] at assigned
    cases found : source.outcome Search.assignment m.before.world with
    | error e =>
        rw [found] at assigned
        cases assigned
    | ok a =>
        rw [found] at assigned
        cases assigned
        rfl

theorem moments_between {s : Session} {steps : List Step} {past mid later : List Moment}
    {m n : Moment} (run : s.moments steps = past ++ m :: (mid ++ n :: later)) :
    ∃ rest, mid = m.after.moments rest ∧ n.before = m.after.advance rest := by
  obtain ⟨first, rest, -, tail⟩ := moments_eq_append run
  obtain ⟨-, rest, tail⟩ := moments_eq_cons tail.symm
  obtain ⟨middle, rest, mid_eq, tail⟩ := moments_eq_append tail.symm
  exact ⟨middle, mid_eq, (moments_eq_cons tail.symm).1⟩

section Run

variable {files : FileSystem} {steps : List Step} {past mid later : List Moment} {m n x y : Moment}
  {k : Nat} {f g : Filed}

theorem holds_of_kept (run : (start files).moments steps = past ++ m :: (mid ++ n :: later))
    (hk : m.collection? = some k) (hf : m.returned? = some f) (kept : ∀ x ∈ mid, ¬x.Forgets k) :
    n.before.Holds k (some f) := by
  obtain ⟨rest, rfl, before⟩ := moments_between run
  rw [before]
  exact ((grounded_before run).holds_of_returned hk hf).advance_of_kept kept

theorem holds_of_forgotten (run : (start files).moments steps = past ++ m :: (mid ++ n :: later))
    (forgets : m.Forgets k) (idle : ∀ x ∈ mid, ∀ f, ¬x.Resolves k f) : n.before.Holds k none := by
  obtain ⟨rest, rfl, before⟩ := moments_between run
  have grounded := grounded_before run
  rw [before]
  exact (grounded.holds_of_forgets forgets).advance_of_idle grounded.step idle

theorem number_ne_of_resolves (run : (start files).moments steps = past ++ n :: later)
    (resolves : n.Resolves k g) (hx : x ∈ past) (hf : x.returned? = some f) :
    f.number ≠ g.number := by
  obtain ⟨first, rest, rfl, -⟩ := moments_eq_append run
  obtain ⟨i, -, y, hy, found⟩ := resolved_of_returned hx hf
  have below := (grounded_before run).issued hy found
  rw [resolves.number_eq]
  exact Nat.ne_of_lt below

theorem assignment_eq_of_returned (hx : x ∈ (start files).moments steps)
    (hy : y ∈ (start files).moments steps) (hk : x.collection? = some k)
    (hk' : y.collection? = some k) (hf : x.returned? = some f) (hg : y.returned? = some g) :
    f.assignment = g.assignment := by
  have whole := grounded_of_run files steps
  obtain ⟨i, hi, x', hx', found⟩ := resolved_of_returned hx hf
  obtain ⟨j, hj, y', hy', found'⟩ := resolved_of_returned hy hg
  obtain rfl : k = i := Option.some.inj (hk.symm.trans hi)
  obtain rfl : k = j := Option.some.inj (hk'.symm.trans hj)
  obtain ⟨members, contents, outcome⟩ := whole.chosen hx' found
  obtain ⟨members', contents', outcome'⟩ := whole.chosen hy' found'
  obtain rfl : members = members' := Option.some.inj (contents.symm.trans contents')
  exact Except.ok.inj (outcome.symm.trans outcome')

theorem collection?_eq_of_number_eq (hx : x ∈ (start files).moments steps)
    (hy : y ∈ (start files).moments steps) (hf : x.returned? = some f) (hg : y.returned? = some g)
    (same : f.number = g.number) : x.collection? = y.collection? := by
  obtain ⟨i, hi, x', hx', found⟩ := resolved_of_returned hx hf
  obtain ⟨j, hj, y', hy', found'⟩ := resolved_of_returned hy hg
  rw [hi, hj, ((grounded_of_run files steps).unique hx' hy' found found' same).1]

theorem not_resolves_of_unassigned (h : x.collection? = some k → ∀ f, x.reply ≠ .assigned f)
    (f : Filed) : ¬x.Resolves k f := by
  rintro ⟨name, fetched, collection, -, assigned⟩
  refine h ?_ f assigned
  rw [Moment.collection?_eq (by rw [fetched]; rfl), collection]

theorem renewed (run : (start files).moments steps = past ++ n :: later)
    (held : n.before.Holds k none) (hn : n.collection? = some k) {name : String}
    (fetched : n.step = .fetch name) (assigned : n.reply = .assigned g) (hx : x ∈ past)
    (hf : x.returned? = some f) :
    f.number ≠ g.number ∧ (x.collection? = some k → f.assignment = g.assignment) := by
  have standing : n.before.collection? name = some k := by
    rwa [Moment.collection?_eq (by rw [fetched]; rfl)] at hn
  have resolves : n.Resolves k g := ⟨name, fetched, standing, held.filed?_eq standing, assigned⟩
  have early : x ∈ (start files).moments steps := run ▸ List.mem_append_left _ hx
  have late : n ∈ (start files).moments steps :=
    run ▸ List.mem_append_right _ (List.mem_cons_self ..)
  refine ⟨number_ne_of_resolves run resolves hx hf, fun hk => ?_⟩
  exact assignment_eq_of_returned early late hk hn hf (congrArg Reply.filed? assigned)

end Run

theorem stability (files : FileSystem) (steps : List Step) :
    (∀ past mid later m n k f,
      (start files).moments steps = past ++ m :: (mid ++ n :: later) →
      m.collection? = some k → n.collection? = some k → m.returned? = some f →
      (∀ x ∈ mid, ¬x.Forgets k) →
      (∀ name, n.step = .fetch name →
        n.reply = .assigned f ∧ n.IsSilent ∧ n.after.source? = n.before.source?) ∧
      ∀ name, n.step = .peek name → n.reply = .peeked (some f) ∧ n.after = n.before) ∧
    (∀ past mid later m n k,
      (start files).moments steps = past ++ m :: (mid ++ n :: later) →
      m.Forgets k → n.collection? = some k →
      (∀ x ∈ mid, x.collection? = some k → ∀ f, x.reply ≠ .assigned f) →
      (∀ name, n.step = .peek name → n.reply = .peeked none) ∧
      ∀ name g, n.step = .fetch name → n.reply = .assigned g →
        ∀ x ∈ past ++ m :: mid, ∀ f, x.returned? = some f → f.number ≠ g.number ∧
          (x.collection? = some k → f.assignment = g.assignment)) ∧
    ∀ x ∈ (start files).moments steps, ∀ y ∈ (start files).moments steps, ∀ f g,
      x.returned? = some f → y.returned? = some g → x.collection? ≠ y.collection? →
      f.number ≠ g.number := by
  refine ⟨?_, ?_, ?_⟩
  · intro past mid later m n k f run hm hn hf kept
    have held := holds_of_kept run hm hf kept
    refine ⟨fun name fetched => ?_, fun name peeked => ?_⟩
    · rw [Moment.collection?_eq (by rw [fetched]; rfl)] at hn
      obtain ⟨reply, source⟩ := held.reply_fetch fetched hn
      exact ⟨reply, held.isSilent fetched hn, source⟩
    · rw [Moment.collection?_eq (by rw [peeked]; rfl)] at hn
      exact held.reply_peek peeked hn
  · intro past mid later m n k run forgets hn unassigned
    have held := holds_of_forgotten run forgets fun x hx =>
      not_resolves_of_unassigned (unassigned x hx)
    have split : (start files).moments steps = (past ++ m :: mid) ++ n :: later := by
      rw [run, List.append_assoc, List.cons_append]
    refine ⟨fun name peeked => ?_, fun name g fetched assigned x hx f hf => ?_⟩
    · rw [Moment.collection?_eq (by rw [peeked]; rfl)] at hn
      exact (held.reply_peek peeked hn).1
    · exact renewed split held hn fetched assigned hx hf
  · intro x hx y hy f g hf hg apart same
    exact apart (collection?_eq_of_number_eq hx hy hf hg same)

-- The collection has lost the name it was fetched by and fails every query.
theorem stability_through_failure :
    let steps := [.create 0 "store" [soleAuthority] none ⟨"down"⟩, .share "store" "other",
      .fetch "store", .drop "store", .failFrom "other" (some 0), .sweep, .fetch "other"]
    let n : Moment := ⟨(start (.bare [])).advance (steps.take 6), .fetch "other"⟩
    n.reply = .assigned ⟨0, soleAuthority, soleAuthority, soleAuthority⟩ ∧ n.IsSilent ∧
      n.after.source? = n.before.source? := by
  intro steps n
  let m : Moment := ⟨(start (.bare [])).advance (steps.take 2), .fetch "store"⟩
  let mid := m.after.moments [.drop "store", .failFrom "other" (some 0), .sweep]
  have kept : ∀ x ∈ mid, ¬x.Forgets 0 := by
    rintro x hx ⟨name, forgot, -⟩
    have steps_mid : x.step ∈ [Step.drop "store", .failFrom "other" (some 0), .sweep] :=
      List.mem_map_of_mem (f := Moment.step) hx
    rw [forgot] at steps_mid
    simp at steps_mid
  exact ((stability (.bare []) steps).1 ((start (.bare [])).moments (steps.take 2)) mid [] m n 0
    ⟨0, soleAuthority, soleAuthority, soleAuthority⟩ rfl rfl rfl rfl kept).1 "other" rfl

end TrustRoles.Session
