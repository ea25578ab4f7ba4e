import TrustRoles.Proofs.Memo
import TrustRoles.Session.Step

namespace TrustRoles

variable {α : Type}

namespace Source

def oracle? : Source → Option Oracle
  | listing l => some l.oracle
  | scripted s => some s.oracle
  | files _ => none

theorem oracle?_answer (source : Source) (c : Criterion) (w : World) :
    (World.run (source.answer c) w).1.2.oracle? = source.oracle? := by
  cases source with
  | listing l => rfl
  | scripted s => rfl
  | files s =>
      rw [answer, World.run_bind]
      rfl

theorem oracle?_consult (source : Source) (i : Consultation α) (w : World) :
    (World.run (source.consult i) w).1.2.oracle? = source.oracle? := by
  unfold consult
  induction i generalizing source w with
  | done a => rfl
  | call c next ih =>
      cases c with
      | ask c =>
          rw [run_carryOut_ask c next source w]
          exact (ih _ _ _).trans (source.oracle?_answer c w)
      | note n => exact ih _ _ _

theorem oracle?_failFrom (source : Source) (n : Option Nat) :
    (source.failFrom n).oracle? = source.oracle? := by
  cases source <;> rfl

theorem outcome_of_oracle? {source : Source} {l : Listing} (h : source.oracle? = some l.oracle)
    {s : Search α} (hp : Search.Prompt s.run) {w : World} {a : α}
    (ha : source.outcome s w = .ok a) : l.outcome s = .ok a := by
  cases source with
  | listing k =>
      rw [outcome_listing] at ha
      rw [← ha, Listing.outcome, Listing.outcome, Option.some.inj h]
  | scripted r =>
      have ran := congrArg Prod.fst (Scripted.carryOut_scripted r s.run w)
      exact Scripted.outcome_of_run (Option.some.inj h) hp (ran.symm.trans ha)
  | files f => cases h

end Source

namespace Session

def collection? (s : Session) (name : String) : Option Nat :=
  (s.registry.holder? name).bind s.registry.number?

def source? (s : Session) (name : String) : Option Source :=
  (s.registry.holder? name).bind s.registry.state?

def filed? (s : Session) (name : String) : Option Filed :=
  (s.registry.holder? name).bind s.peek

theorem peek_of_mem {s : Session} {p : Nat} (h : p ∈ s.registry.places) :
    s.peek p = s.memo.filed? p := by
  rw [peek, Memo.peek, if_pos (Registry.alive_iff.mpr h)]

theorem collection?_of_holder? {s : Session} {name : String} {p : Nat}
    (h : s.registry.holder? name = some p) : s.collection? name = s.registry.number? p := by
  rw [collection?, h, Option.bind_some]

theorem filed?_of_holder? {s : Session} {name : String} {p : Nat}
    (h : s.registry.holder? name = some p) : s.filed? name = s.memo.filed? p := by
  rw [filed?, h, Option.bind_some, peek_of_mem (Registry.mem_places_of_holder? h)]

theorem vacant_not_mem (s : Session) (wish : Nat) :
    s.vacant wish ∉ s.registry.places ∧ s.vacant wish ∉ s.memo.places := by
  have free := s.registry.vacant_not_mem s.memo.places wish
  rw [List.mem_append, not_or] at free
  exact free

theorem number?_holdNear {s : Session} {wish : Nat} {name : String} {make : Nat → Source}
    {q k : Nat} (h : (s.holdNear wish name make).registry.number? q = some k) :
    q = s.vacant wish ∧ k = s.registry.next ∨
      q ≠ s.vacant wish ∧ s.registry.number? q = some k := by
  change (s.registry.hold name (s.vacant wish) make).number? q = some k at h
  rw [Registry.number?_hold] at h
  by_cases new : q = s.vacant wish
  · rw [if_pos new] at h
    exact .inl ⟨new, (Option.some.inj h).symm⟩
  · rw [if_neg new] at h
    exact .inr ⟨new, h⟩

theorem number?_holdNear_of_ne {s : Session} {wish q : Nat} (h : q ≠ s.vacant wish)
    (name : String) (make : Nat → Source) :
    (s.holdNear wish name make).registry.number? q = s.registry.number? q :=
  (s.registry.number?_hold name _ make q).trans (if_neg h)

structure Numbered (s : Session) : Prop where
  below : ∀ {p k}, s.registry.number? p = some k → k < s.registry.next
  single : ∀ {p q k}, s.registry.number? p = some k → s.registry.number? q = some k → p = q

theorem Numbered.holdNear {s : Session} (h : s.Numbered) (wish : Nat) (name : String)
    (make : Nat → Source) : (s.holdNear wish name make).Numbered where
  below {p k} hk := by
    change k < s.registry.next + 1
    rcases number?_holdNear hk with ⟨-, rfl⟩ | ⟨-, hk⟩
    · exact Nat.lt_succ_self _
    · exact Nat.lt_succ_of_lt (h.below hk)
  single hp hq := by
    rcases number?_holdNear hp with ⟨rfl, rfl⟩ | ⟨-, hp⟩
    · rcases number?_holdNear hq with ⟨rfl, -⟩ | ⟨-, hq⟩
      · rfl
      · exact absurd (h.below hq) (Nat.lt_irrefl _)
    · rcases number?_holdNear hq with ⟨-, rfl⟩ | ⟨-, hq⟩
      · exact absurd (h.below hp) (Nat.lt_irrefl _)
      · exact h.single hp hq

theorem state?_holdNear (s : Session) (wish : Nat) (name : String) (make : Nat → Source) (q : Nat) :
    (s.holdNear wish name make).registry.state? q =
      if q = s.vacant wish then some (make s.registry.next) else s.registry.state? q :=
  s.registry.state?_hold name _ make q

theorem fetch_of_filed {s : Session} {p : Nat} {source : Source} {f : Filed}
    (hp : p ∈ s.registry.places) (hs : s.registry.state? p = some source)
    (hf : s.memo.filed? p = some f) :
    ∃ v, s.fetch p = some (.ok f, ⟨v, s.registry.update p fun _ => source,
      s.memo.ready s.registry.alive p⟩) := by
  obtain ⟨v, -, ran⟩ :=
    Memo.run_fetch_of_filed (Registry.alive_iff.mpr hp) hf source s.world
  refine ⟨v, ?_⟩
  simp only [fetch, consult, hs, Option.map_some, run, ran]

theorem fetch_of_not_filed {s : Session} {p : Nat} {source : Source}
    (hs : s.registry.state? p = some source) (hf : s.memo.filed? p = none) :
    ∃ v r after x, v.files = s.world.files ∧
      World.run (source.consult Search.assignment.run) v = ((r, after), x) ∧
      s.fetch p = some (r.map (Filed.mk s.memo.issued), ⟨x, s.registry.update p fun _ => after,
        (s.memo.ready s.registry.alive p).settled p r⟩) := by
  obtain ⟨v, r, after, x, files, searched, ran⟩ :=
    Memo.run_fetch_of_not_filed s.registry.alive hf source s.world
  refine ⟨v, r, after, x, files, searched, ?_⟩
  simp only [fetch, consult, hs, Option.map_some, run, ran]

def Step.members? : Step → Option (List Member)
  | .create _ _ members _ _ | .list _ _ members => some members
  | _ => none

def Step.name? : Step → Option String
  | .fetch name | .peek name | .forget name => some name
  | _ => none

def Reply.filed? : Reply → Option Filed
  | .assigned f => some f
  | .peeked found => found
  | _ => none

structure Keeps (s after : Session) : Prop where
  places : after.registry.places ⊆ s.registry.places
  number? : ∀ q, after.registry.number? q = s.registry.number? q
  next : after.registry.next = s.registry.next
  oracle? : ∀ q, (after.registry.state? q).bind Source.oracle? =
    (s.registry.state? q).bind Source.oracle?

inductive Effect (s : Session) : Step → Reply → Session → Prop
  | create {st : Step} {members : List Member} {source : Source} (wish : Nat) (name : String)
      (made : st.members? = some members)
      (answers : source.oracle? = some (Listing.mk members).oracle) :
      Effect s st .silent (s.holdNear wish name fun _ => source)
  | keep {st : Step} {reply : Reply} {after : Session} (keeps : s.Keeps after)
      (members : st.members? = none) (issued : after.memo.issued = s.memo.issued)
      (filed : ∀ q, after.memo.filed? q = s.memo.filed? q ∨ after.memo.filed? q = none ∧
        (q ∉ s.registry.places ∨ reply.filed? = none ∧
          ∃ name, st = .forget name ∧ s.registry.holder? name = some q))
      (told : ∀ f, reply.filed? = some f → ∃ name p, st.name? = some name ∧
        s.registry.holder? name = some p ∧ s.memo.filed? p = some f) :
      Effect s st reply after
  | assign {name : String} {p : Nat} {source : Source} {a : Assignment} {after : Session}
      (holder : s.registry.holder? name = some p) (state : s.registry.state? p = some source)
      (fresh : s.memo.filed? p = none) (found : source.outcome Search.assignment s.world = .ok a)
      (keeps : s.Keeps after) (issued : after.memo.issued = s.memo.issued + 1)
      (settled : after.memo.filed? p = some ⟨s.memo.issued, a⟩)
      (filed : ∀ q, q ≠ p → after.memo.filed? q = s.memo.filed? q ∨
        after.memo.filed? q = none ∧ q ∉ s.registry.places) :
      Effect s (.fetch name) (.assigned ⟨s.memo.issued, a⟩) after

theorem Keeps.refl (s : Session) : s.Keeps s :=
  ⟨List.Subset.refl _, fun _ => rfl, rfl, fun _ => rfl⟩

theorem Keeps.of_registry {s after : Session} (h : after.registry = s.registry) : s.Keeps after where
  places q hq := h ▸ hq
  number? q := by rw [h]
  next := by rw [h]
  oracle? q := by rw [h]

theorem keeps_update {s : Session} {p : Nat} {source after : Source} {w : World} {m : Memo}
    (hs : s.registry.state? p = some source) (same : after.oracle? = source.oracle?) :
    s.Keeps ⟨w, s.registry.update p fun _ => after, m⟩ where
  places := List.Subset.refl _
  number? := s.registry.number?_update p _
  next := rfl
  oracle? q := by
    rw [Registry.state?_update]
    by_cases hq : q = p
    · subst hq
      simp [hs, same]
    · simp [hq]

theorem filed?_ready_eq_or (s : Session) (p q : Nat) :
    (s.memo.ready s.registry.alive p).filed? q = s.memo.filed? q ∨
      (s.memo.ready s.registry.alive p).filed? q = none ∧ q ∉ s.registry.places := by
  rw [Memo.filed?_ready]
  by_cases hq : q ∈ s.registry.places
  · exact .inl (if_pos (Registry.alive_iff.mpr hq))
  · have gone : ¬s.registry.alive q = true := fun live => hq (Registry.alive_iff.mp live)
    exact .inr ⟨if_neg gone, hq⟩

theorem effect_idle (s : Session) {st : Step} {reply : Reply} (members : st.members? = none)
    (told : reply.filed? = none) : Effect s st reply s :=
  .keep (.refl s) members rfl (fun _ => .inl rfl) (fun f hf => by rw [told] at hf; cases hf)

theorem access_of_holder? {s : Session} {name : String} {p : Nat}
    (h : s.registry.holder? name = some p) (f : Nat → Option (Reply × Session)) :
    s.access name f = (f p).getD (.silent, s) := by
  rw [access, h, Option.bind_some]

theorem access_of_holder?_eq_none {s : Session} {name : String}
    (h : s.registry.holder? name = none) (f : Nat → Option (Reply × Session)) :
    s.access name f = (.silent, s) := by
  rw [access, h, Option.bind_none, Option.getD_none]

theorem access_eq_or (s : Session) (name : String) (f : Nat → Option (Reply × Session)) :
    s.access name f = (.silent, s) ∨
      ∃ p r, p ∈ s.registry.places ∧ f p = some r ∧ s.access name f = r := by
  cases holder : s.registry.holder? name with
  | none => exact .inl (access_of_holder?_eq_none holder f)
  | some p =>
      rw [access_of_holder? holder]
      cases made : f p with
      | none => exact .inl rfl
      | some r => exact .inr ⟨p, r, Registry.mem_places_of_holder? holder, made, rfl⟩

theorem effect_access {s : Session} {st : Step} {name : String} {f : Nat → Option (Reply × Session)}
    (members : st.members? = none) (found : ∀ p, s.registry.holder? name = some p →
      Effect s st (s.access name f).1 (s.access name f).2) :
    Effect s st (s.access name f).1 (s.access name f).2 := by
  cases holder : s.registry.holder? name with
  | none =>
      rw [access_of_holder?_eq_none holder]
      exact s.effect_idle members rfl
  | some p => exact found p holder

theorem step_fetch_of_filed {s : Session} {name : String} {p : Nat} {source : Source} {f : Filed}
    (holder : s.registry.holder? name = some p) (hs : s.registry.state? p = some source)
    (hf : s.memo.filed? p = some f) :
    ∃ v, s.step (.fetch name) = (.assigned f,
      ⟨v, s.registry.update p fun _ => source, s.memo.ready s.registry.alive p⟩) := by
  obtain ⟨v, fetched⟩ := fetch_of_filed (Registry.mem_places_of_holder? holder) hs hf
  refine ⟨v, ?_⟩
  rw [step, access_of_holder? holder, fetched]
  rfl

theorem step_fetch_of_not_filed {s : Session} {name : String} {p : Nat} {source : Source}
    (holder : s.registry.holder? name = some p) (hs : s.registry.state? p = some source)
    (hf : s.memo.filed? p = none) :
    ∃ after x, after.oracle? = source.oracle? ∧ s.step (.fetch name) =
      (.ofFetch ((source.outcome Search.assignment s.world).map (Filed.mk s.memo.issued)),
        ⟨x, s.registry.update p fun _ => after, (s.memo.ready s.registry.alive p).settled p
          (source.outcome Search.assignment s.world)⟩) := by
  obtain ⟨v, r, after, x, files, searched, fetched⟩ := fetch_of_not_filed hs hf
  have same : after.oracle? = source.oracle? := by
    have kept := source.oracle?_consult Search.assignment.run v
    rwa [searched] at kept
  have outcome : source.outcome Search.assignment s.world = r := by
    rw [source.outcome_congr Search.assignment files.symm, Source.outcome, searched]
  refine ⟨after, x, same, ?_⟩
  rw [step, access_of_holder? holder, fetched, outcome]
  rfl

theorem effect_fetch_of_filed {s : Session} {name : String} {p : Nat} {source : Source} {f : Filed}
    (holder : s.registry.holder? name = some p) (hs : s.registry.state? p = some source)
    (hf : s.memo.filed? p = some f) :
    Effect s (.fetch name) (s.step (.fetch name)).1 (s.step (.fetch name)).2 := by
  obtain ⟨v, stepped⟩ := step_fetch_of_filed holder hs hf
  rw [stepped]
  refine .keep (keeps_update hs rfl) rfl (Memo.issued_ready ..) (fun q => ?_) (fun g hg => ?_)
  · exact (s.filed?_ready_eq_or p q).imp_right fun gone => ⟨gone.1, .inl gone.2⟩
  · obtain rfl : f = g := Option.some.inj hg
    exact ⟨name, p, rfl, holder, hf⟩

theorem effect_fetch_of_not_filed {s : Session} {name : String} {p : Nat} {source : Source}
    (holder : s.registry.holder? name = some p) (hs : s.registry.state? p = some source)
    (hf : s.memo.filed? p = none) :
    Effect s (.fetch name) (s.step (.fetch name)).1 (s.step (.fetch name)).2 := by
  obtain ⟨after, x, same, stepped⟩ := step_fetch_of_not_filed holder hs hf
  rw [stepped]
  generalize found : source.outcome Search.assignment s.world = r
  cases r with
  | error e =>
      refine .keep (keeps_update hs same) rfl (Memo.issued_ready ..) (fun q => ?_)
        (fun f hf => by cases hf)
      exact (s.filed?_ready_eq_or p q).imp_right fun gone => ⟨gone.1, .inl gone.2⟩
  | ok a =>
      have reserved : p ∈ (s.memo.ready s.registry.alive p).places :=
        Memo.mem_places_ready.mpr (.inl rfl)
      refine .assign holder hs hf found (keeps_update hs same) ?_ ?_ fun q hq => ?_
      · exact congrArg (· + 1) (Memo.issued_ready ..)
      · change ((s.memo.ready s.registry.alive p).file p a).filed? p = _
        rw [Memo.filed?_file reserved, if_pos rfl, Memo.issued_ready]
      · change ((s.memo.ready s.registry.alive p).file p a).filed? q = _ ∨
          ((s.memo.ready s.registry.alive p).file p a).filed? q = _ ∧ _
        rw [Memo.filed?_file reserved, if_neg hq]
        exact s.filed?_ready_eq_or p q

theorem keeps_share (s : Session) (name other : String) : s.Keeps (s.share name other) where
  places _ hq := Registry.mem_places_share hq
  number? q := congrArg (Option.map Holding.number) (s.registry.holding?_share name other q)
  next := Registry.next_share ..
  oracle? q := congrArg (fun h => (Option.map Holding.state h).bind Source.oracle?)
    (s.registry.holding?_share name other q)

theorem keeps_drop (s : Session) (name : String) : s.Keeps (s.drop name) where
  places := s.registry.places_drop name
  number? _ := rfl
  next := rfl
  oracle? _ := rfl

theorem keeps_failFrom (s : Session) (p : Nat) (n : Option Nat) :
    s.Keeps (s.update p (Source.failFrom n)) where
  places := List.Subset.refl _
  number? := s.registry.number?_update p _
  next := rfl
  oracle? q := by
    change ((s.registry.update p _).state? q).bind _ = _
    rw [Registry.state?_update]
    cases s.registry.state? q with
    | none => rfl
    | some source =>
        by_cases hq : q = p
        · simp [hq, Source.oracle?_failFrom]
        · simp [hq]

theorem effect_aside {s after : Session} {st : Step} (keeps : s.Keeps after)
    (members : st.members? = none) (memo : after.memo = s.memo) : Effect s st .silent after :=
  .keep keeps members (congrArg Memo.issued memo) (fun q => .inl (by rw [memo]))
    (fun f hf => by cases hf)

theorem effect_fetch (s : Session) (name : String) :
    Effect s (.fetch name) (s.step (.fetch name)).1 (s.step (.fetch name)).2 := by
  refine effect_access rfl fun p holder => ?_
  cases state : s.registry.state? p with
  | none =>
      have unheld : s.fetch p = none := by simp [fetch, consult, state]
      rw [access_of_holder? holder, unheld]
      exact s.effect_idle rfl rfl
  | some source =>
      cases filed : s.memo.filed? p with
      | none => exact effect_fetch_of_not_filed holder state filed
      | some f => exact effect_fetch_of_filed holder state filed

theorem effect_peek (s : Session) (name : String) :
    Effect s (.peek name) (s.step (.peek name)).1 (s.step (.peek name)).2 := by
  refine effect_access rfl fun p holder => ?_
  rw [access_of_holder? holder]
  refine .keep (.refl s) rfl rfl (fun _ => .inl rfl) fun f hf => ?_
  have found : s.peek p = some f := hf
  rw [peek_of_mem (Registry.mem_places_of_holder? holder)] at found
  exact ⟨name, p, rfl, holder, found⟩

theorem effect_failFrom (s : Session) (name : String) (n : Option Nat) :
    Effect s (.failFrom name n) (s.step (.failFrom name n)).1 (s.step (.failFrom name n)).2 := by
  refine effect_access rfl fun p holder => ?_
  rw [access_of_holder? holder]
  exact effect_aside (s.keeps_failFrom p n) rfl rfl

theorem registry_forget (s : Session) (p : Nat) : (s.forget p).2.registry = s.registry := by
  dsimp only [forget]
  split <;> rfl

theorem memo_forget (s : Session) (p : Nat) :
    (s.forget p).2.memo = (s.memo.forget s.registry.alive p).2 := by
  dsimp only [forget]
  split <;> rfl

theorem effect_forget (s : Session) (name : String) :
    Effect s (.forget name) (s.step (.forget name)).1 (s.step (.forget name)).2 := by
  refine effect_access rfl fun p holder => ?_
  have live := Registry.alive_iff.mpr (Registry.mem_places_of_holder? holder)
  rw [access_of_holder? holder, Option.getD_some]
  refine .keep (.of_registry (s.registry_forget p)) rfl ?_ (fun q => ?_) (fun f hf => by cases hf)
  · rw [memo_forget, Memo.issued_forget]
  · rw [memo_forget, Memo.filed?_forget live]
    by_cases hq : q = p
    · exact .inr ⟨if_pos hq, .inr ⟨rfl, name, rfl, hq ▸ holder⟩⟩
    · exact .inl (if_neg hq)

theorem registry_sweep (s : Session) : s.sweep.2.registry = s.registry := by
  dsimp only [sweep]
  split <;> rfl

theorem memo_sweep (s : Session) : s.sweep.2.memo = s.memo.swept s.registry.alive := by
  dsimp only [sweep]
  split <;> rfl

theorem effect_sweep (s : Session) : Effect s .sweep (s.step .sweep).1 (s.step .sweep).2 := by
  refine .keep (.of_registry s.registry_sweep) rfl ?_ (fun q => ?_) (fun f hf => by cases hf)
  · change s.sweep.2.memo.issued = _
    rw [memo_sweep]
    rfl
  · change s.sweep.2.memo.filed? q = _ ∨ s.sweep.2.memo.filed? q = _ ∧ _
    rw [memo_sweep, Memo.filed?_swept]
    by_cases hq : q ∈ s.registry.places
    · exact .inl (if_pos (Registry.alive_iff.mpr hq))
    · exact .inr ⟨if_neg fun live => hq (Registry.alive_iff.mp live), .inl hq⟩

theorem step_effect (s : Session) (st : Step) : Effect s st (s.step st).1 (s.step st).2 := by
  cases st with
  | create wish name members failsFrom failure => exact .create wish name rfl rfl
  | list wish name members => exact .create wish name rfl rfl
  | share name other => exact effect_aside (s.keeps_share name other) rfl rfl
  | drop name => exact effect_aside (s.keeps_drop name) rfl rfl
  | failFrom name n => exact s.effect_failFrom name n
  | fetch name => exact s.effect_fetch name
  | peek name => exact s.effect_peek name
  | forget name => exact s.effect_forget name
  | sweep => exact s.effect_sweep

end Session

end TrustRoles
