import TrustRoles.Proofs.Session.Effect

namespace TrustRoles.Session

structure Moment where
  before : Session
  step : Step

namespace Moment

def reply (m : Moment) : Reply :=
  (m.before.step m.step).1

def after (m : Moment) : Session :=
  (m.before.step m.step).2

def collection? (m : Moment) : Option Nat :=
  m.step.name?.bind m.before.collection?

def returned? (m : Moment) : Option Filed :=
  m.reply.filed?

def Resolves (m : Moment) (k : Nat) (f : Filed) : Prop :=
  ∃ name, m.step = .fetch name ∧ m.before.collection? name = some k ∧
    m.before.filed? name = none ∧ m.reply = .assigned f

theorem effect (m : Moment) : Effect m.before m.step m.reply m.after :=
  m.before.step_effect m.step

theorem keeps {m : Moment} (h : m.step.members? = none) : m.before.Keeps m.after := by
  have effect := m.effect
  generalize m.step = st, m.reply = reply, m.after = after at h effect
  cases effect with
  | create wish name made answers => cases h.symm.trans made
  | keep keeps members issued filed told => exact keeps
  | assign holder state fresh found keeps issued settled filed => exact keeps

end Moment

def advance (s : Session) : List Step → Session
  | [] => s
  | st :: steps => (s.step st).2.advance steps

def moments (s : Session) : List Step → List Moment
  | [] => []
  | st :: steps => ⟨s, st⟩ :: (s.step st).2.moments steps

def made (past : List Moment) : List (List Member) :=
  past.filterMap fun m => m.step.members?

theorem moments_eq_append {s : Session} {steps : List Step} {past later : List Moment}
    (h : s.moments steps = past ++ later) :
    ∃ first rest, past = s.moments first ∧ later = (s.advance first).moments rest := by
  induction past generalizing s steps with
  | nil => exact ⟨[], steps, rfl, h.symm⟩
  | cons m past ih =>
      cases steps with
      | nil => cases h
      | cons st steps =>
          obtain ⟨rfl, tail⟩ := List.cons.inj h
          obtain ⟨first, rest, early, late⟩ := ih tail
          exact ⟨st :: first, rest, congrArg (List.cons _) early, late⟩

theorem moments_eq_cons {s : Session} {steps : List Step} {m : Moment} {later : List Moment}
    (h : s.moments steps = m :: later) : m.before = s ∧ ∃ rest, later = m.after.moments rest := by
  cases steps with
  | nil => cases h
  | cons st steps =>
      obtain ⟨rfl, tail⟩ := List.cons.inj h
      exact ⟨rfl, steps, tail.symm⟩

theorem made_append (past later : List Moment) : made (past ++ later) = made past ++ made later :=
  List.filterMap_append

theorem made_snoc_of_members?_eq_none (past : List Moment) {m : Moment}
    (h : m.step.members? = none) : made (past ++ [m]) = made past := by
  have none : made [m] = [] := List.filterMap_cons_none h
  rw [made_append, none, List.append_nil]

theorem made_snoc_of_members? (past : List Moment) {m : Moment} {members : List Member}
    (h : m.step.members? = some members) : made (past ++ [m]) = made past ++ [members] := by
  have one : made [m] = [members] := List.filterMap_cons_some h
  rw [made_append, one]

theorem getElem?_made_append {past : List Moment} {k : Nat} {members : List Member}
    (h : (made past)[k]? = some members) (later : List Moment) :
    (made (past ++ later))[k]? = some members := by
  have inside : k < (made past).length := (List.getElem?_eq_some_iff.mp h).1
  rw [made_append, List.getElem?_append_left inside, h]

theorem Moment.Resolves.unique {m : Moment} {k l : Nat} {f g : Filed} (hf : m.Resolves k f)
    (hg : m.Resolves l g) : k = l ∧ f = g := by
  obtain ⟨name, fetched, collection, -, reply⟩ := hf
  obtain ⟨other, fetched', collection', -, reply'⟩ := hg
  obtain rfl : name = other := by simpa using fetched.symm.trans fetched'
  exact ⟨by simpa using collection.symm.trans collection', by simpa using reply.symm.trans reply'⟩

theorem mem_of_resolves {past : List Moment} {m n : Moment} {members : List Member} {k : Nat}
    {f : Filed} (hm : m.step.members? = some members) (hn : n ∈ past ++ [m])
    (found : n.Resolves k f) : n ∈ past := by
  rcases List.mem_append.mp hn with old | new
  · exact old
  · obtain rfl := List.mem_singleton.mp new
    obtain ⟨name, fetched, -⟩ := found
    rw [fetched] at hm
    cases hm

/-- Every collection answers by the certificates it was made of, and every assignment, on file or
not, was found in those of its own collection. -/
structure Grounded (past : List Moment) (s : Session) : Prop where
  counted : s.registry.next = (made past).length
  below : ∀ {p k}, s.registry.number? p = some k → k < s.registry.next
  single : ∀ {p q k}, s.registry.number? p = some k → s.registry.number? q = some k → p = q
  contents : ∀ {p k}, s.registry.number? p = some k → ∃ members, (made past)[k]? = some members ∧
    (s.registry.state? p).bind Source.oracle? = some (Listing.mk members).oracle
  filed : ∀ {p f}, s.memo.filed? p = some f →
    ∃ k, s.registry.number? p = some k ∧ ∃ m ∈ past, m.Resolves k f
  issued : ∀ {m k f}, m ∈ past → m.Resolves k f → f.number < s.memo.issued
  chosen : ∀ {m k f}, m ∈ past → m.Resolves k f → ∃ members, (made past)[k]? = some members ∧
    (Listing.mk members).outcome Search.assignment = .ok f.assignment
  unique : ∀ {m n k l f g}, m ∈ past → n ∈ past → m.Resolves k f → n.Resolves l g →
    f.number = g.number → k = l ∧ f = g

namespace Grounded

variable {past : List Moment} {s after : Session}

theorem numbered (h : Grounded past s) : s.Numbered :=
  ⟨h.below, h.single⟩

theorem start (files : FileSystem) : Grounded [] (start files) where
  counted := rfl
  below h := by cases h
  single h := by cases h
  contents h := by cases h
  filed h := by cases h
  issued h := by cases h
  chosen h := by cases h
  unique h := by cases h

theorem keep (h : Grounded past s) {m : Moment} (members : m.step.members? = none)
    (keeps : s.Keeps after) (more : s.memo.issued ≤ after.memo.issued)
    (filed : ∀ q f, after.memo.filed? q = some f → s.memo.filed? q = some f ∨
      ∃ k, s.registry.number? q = some k ∧ m.Resolves k f)
    (resolved : ∀ k f, m.Resolves k f → s.memo.issued ≤ f.number ∧
      f.number < after.memo.issued ∧ ∃ members, (made past)[k]? = some members ∧
        (Listing.mk members).outcome Search.assignment = .ok f.assignment) :
    Grounded (past ++ [m]) after where
  counted := by rw [made_snoc_of_members?_eq_none past members, keeps.next, h.counted]
  below hk := by
    rw [keeps.number?] at hk
    rw [keeps.next]
    exact h.below hk
  single hp hq := by
    rw [keeps.number?] at hp hq
    exact h.single hp hq
  contents hk := by
    rw [keeps.number?] at hk
    rw [made_snoc_of_members?_eq_none past members, keeps.oracle?]
    exact h.contents hk
  filed {q f} hf := by
    rw [keeps.number?]
    rcases filed q f hf with old | ⟨k, hk, new⟩
    · obtain ⟨k, hk, n, hn, found⟩ := h.filed old
      exact ⟨k, hk, n, List.mem_append_left _ hn, found⟩
    · exact ⟨k, hk, m, List.mem_append_right _ (List.mem_singleton_self m), new⟩
  issued hn found := by
    rcases List.mem_append.mp hn with old | new
    · exact Nat.lt_of_lt_of_le (h.issued old found) more
    · obtain rfl := List.mem_singleton.mp new
      exact (resolved _ _ found).2.1
  chosen hn found := by
    rw [made_snoc_of_members?_eq_none past members]
    rcases List.mem_append.mp hn with old | new
    · exact h.chosen old found
    · obtain rfl := List.mem_singleton.mp new
      exact (resolved _ _ found).2.2
  unique hn hn' found found' same := by
    rcases List.mem_append.mp hn with old | new
    · rcases List.mem_append.mp hn' with old' | new'
      · exact h.unique old old' found found' same
      · obtain rfl := List.mem_singleton.mp new'
        have below := h.issued old found
        have above := (resolved _ _ found').1
        omega
    · obtain rfl := List.mem_singleton.mp new
      rcases List.mem_append.mp hn' with old' | new'
      · have below := h.issued old' found'
        have above := (resolved _ _ found).1
        omega
      · obtain rfl := List.mem_singleton.mp new'
        exact found.unique found'

theorem create {m : Moment} (h : Grounded past m.before) {members : List Member}
    {source : Source} (wish : Nat) (name : String) (hm : m.step.members? = some members)
    (answers : source.oracle? = some (Listing.mk members).oracle) :
    Grounded (past ++ [m]) (m.before.holdNear wish name fun _ => source) where
  counted := by
    change m.before.registry.next + 1 = _
    rw [made_snoc_of_members? past hm, List.length_append, h.counted]
    rfl
  below := (h.numbered.holdNear wish name fun _ => source).below
  single := (h.numbered.holdNear wish name fun _ => source).single
  contents {p k} hk := by
    rw [state?_holdNear]
    rcases number?_holdNear hk with ⟨new, rfl⟩ | ⟨other, hk⟩
    · refine ⟨members, ?_, ?_⟩
      · rw [made_snoc_of_members? past hm, h.counted, List.getElem?_concat_length]
      · rw [if_pos new, Option.bind_some, answers]
    · obtain ⟨ms, before, answers⟩ := h.contents hk
      rw [if_neg other]
      exact ⟨ms, getElem?_made_append before [m], answers⟩
  filed {p f} hf := by
    obtain ⟨k, hk, n, hn, found⟩ := h.filed hf
    -- a place that a slot refers to is not vacant, even if its collection is gone
    have other : p ≠ m.before.vacant wish := by
      rintro rfl
      have unfiled := Memo.filed?_eq_none_of_not_mem (m.before.vacant_not_mem wish).2
      exact absurd (unfiled.symm.trans hf) (by simp)
    exact ⟨k, (number?_holdNear_of_ne other name _).trans hk, n, List.mem_append_left _ hn, found⟩
  issued hn found := h.issued (mem_of_resolves hm hn found) found
  chosen hn found := by
    obtain ⟨ms, before, outcome⟩ := h.chosen (mem_of_resolves hm hn found) found
    exact ⟨ms, getElem?_made_append before [m], outcome⟩
  unique hn hn' found found' :=
    h.unique (mem_of_resolves hm hn found) (mem_of_resolves hm hn' found') found found'

theorem step {m : Moment} (h : Grounded past m.before) : Grounded (past ++ [m]) m.after := by
  have effect := m.effect
  generalize hm : m.step = st, hr : m.reply = reply, ha : m.after = after at effect
  cases effect with
  | create wish name made answers => exact h.create wish name (hm ▸ made) answers
  | keep keeps members issued filed told =>
      -- what is told was on file already, so nothing was searched for
      have idle : ∀ k f, ¬m.Resolves k f := by
        rintro k f ⟨name, fetched, -, fresh, assigned⟩
        obtain ⟨other, p, named, holder, found⟩ := told f (by rw [← hr, assigned]; rfl)
        rw [← hm, fetched] at named
        obtain rfl := Option.some.inj named
        have filed := (filed?_of_holder? holder).trans found
        rw [fresh] at filed
        cases filed
      refine h.keep (hm ▸ members) keeps (Nat.le_of_eq issued.symm) (fun q f hf => ?_)
        (fun k f found => absurd found (idle k f))
      rcases filed q with same | ⟨gone, -⟩
      · exact .inl (same ▸ hf)
      · rw [gone] at hf
        cases hf
  | @assign name p source a _ holder state fresh found keeps issued settled filed =>
      obtain ⟨k, hk⟩ := Registry.number?_of_state? state
      obtain ⟨ms, before, answers⟩ := h.contents hk
      rw [state] at answers
      have resolves : m.Resolves k ⟨m.before.memo.issued, a⟩ :=
        ⟨name, hm, (collection?_of_holder? holder).trans hk, (filed?_of_holder? holder).trans fresh, hr⟩
      refine h.keep (hm ▸ rfl) keeps (by omega) (fun q f hf => ?_) (fun l f other => ?_)
      · by_cases hq : q = p
        · rw [hq, settled] at hf
          exact .inr ⟨k, hq ▸ hk, Option.some.inj hf ▸ resolves⟩
        · rcases filed q hq with same | ⟨gone, -⟩
          · exact .inl (same ▸ hf)
          · rw [gone] at hf
            cases hf
      -- queries may fail, but a search that succeeds finds what it would find without failures
      · obtain ⟨rfl, rfl⟩ := resolves.unique other
        exact ⟨Nat.le_refl _, by rw [issued]; exact Nat.lt_succ_self _, ms, before,
          Source.outcome_of_oracle? answers Search.prompt_assignment found⟩

theorem advance (h : Grounded past s) (steps : List Step) :
    Grounded (past ++ s.moments steps) (s.advance steps) := by
  induction steps generalizing past s with
  | nil => exact (List.append_nil past).symm ▸ h
  | cons st steps ih =>
      have now : Grounded (past ++ [⟨s, st⟩]) (s.step st).2 := step (m := ⟨s, st⟩) h
      have later := ih now
      rwa [List.append_assoc] at later

end Grounded

theorem grounded_of_run (files : FileSystem) (steps : List Step) :
    Grounded ((start files).moments steps) ((start files).advance steps) :=
  (Grounded.start files).advance steps

theorem grounded_before {files : FileSystem} {steps : List Step} {past later : List Moment}
    {m : Moment} (run : (start files).moments steps = past ++ m :: later) :
    Grounded past m.before := by
  obtain ⟨first, rest, rfl, tail⟩ := moments_eq_append run
  obtain ⟨before, -⟩ := moments_eq_cons tail.symm
  exact before ▸ grounded_of_run files first

end TrustRoles.Session
