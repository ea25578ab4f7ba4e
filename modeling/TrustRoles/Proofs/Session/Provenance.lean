import TrustRoles.Proofs.Session.History

namespace TrustRoles.Session

theorem source?_of_collection? {s : Session} {name : String} {k : Nat}
    (h : s.collection? name = some k) : ∃ source, s.source? name = some source := by
  obtain ⟨p, holder, number⟩ := Option.bind_eq_some_iff.mp h
  obtain ⟨holding, held, -⟩ := Option.map_eq_some_iff.mp number
  refine ⟨holding.state, ?_⟩
  rw [source?, holder, Option.bind_some, Registry.state?, held, Option.map_some]

theorem reply_fetch {s : Session} {name : String} {source : Source}
    (h : s.source? name = some source) :
    (∃ f, s.filed? name = some f ∧ (s.step (.fetch name)).1 = .assigned f) ∨
    s.filed? name = none ∧ (s.step (.fetch name)).1 =
      .ofFetch ((source.outcome Search.assignment s.world).map (Filed.mk s.memo.issued)) := by
  obtain ⟨p, holder, state⟩ := Option.bind_eq_some_iff.mp h
  rw [filed?_of_holder? holder]
  cases filed : s.memo.filed? p with
  | some f =>
      obtain ⟨v, stepped⟩ := step_fetch_of_filed holder state filed
      exact .inl ⟨f, rfl, congrArg Prod.fst stepped⟩
  | none =>
      obtain ⟨after, x, -, stepped⟩ := step_fetch_of_not_filed holder state filed
      exact .inr ⟨rfl, congrArg Prod.fst stepped⟩

theorem reply_fetch_total {s : Session} {name : String} {source : Source}
    (h : s.source? name = some source) :
    (∃ f, (s.step (.fetch name)).1 = .assigned f) ∨ ∃ e, (s.step (.fetch name)).1 = .failed e := by
  rcases reply_fetch h with ⟨f, -, reply⟩ | ⟨-, reply⟩
  · exact .inl ⟨f, reply⟩
  · rw [reply]
    cases source.outcome Search.assignment s.world with
    | ok a => exact .inl ⟨⟨s.memo.issued, a⟩, rfl⟩
    | error e => exact .inr ⟨e, rfl⟩

theorem reply_fetch_eq_failed_iff {s : Session} {name : String} {source : Source}
    (h : s.source? name = some source) (e : RoleFailure) :
    (s.step (.fetch name)).1 = .failed e ↔
      s.filed? name = none ∧ source.outcome Search.assignment s.world = .error e := by
  rcases reply_fetch h with ⟨f, filed, reply⟩ | ⟨filed, reply⟩
  · rw [reply, filed]
    simp
  · rw [reply, filed]
    cases source.outcome Search.assignment s.world with
    | ok a => simp [Except.map, Reply.ofFetch]
    | error f => simp [Except.map, Reply.ofFetch]

namespace Grounded

variable {past : List Moment}

theorem contents_of_collection? {s : Session} (h : Grounded past s) {name : String} {k : Nat}
    (hk : s.collection? name = some k) : ∃ members, (made past)[k]? = some members := by
  obtain ⟨p, -, number⟩ := Option.bind_eq_some_iff.mp hk
  obtain ⟨members, before, -⟩ := h.contents number
  exact ⟨members, before⟩

theorem returned {m : Moment} (h : Grounded past m.before) {f : Filed}
    (hf : m.returned? = some f) :
    ∃ k, m.collection? = some k ∧ ∃ n ∈ past ++ [m], n.Resolves k f := by
  have effect := m.effect
  generalize hm : m.step = st, hr : m.reply = reply, ha : m.after = after at effect
  rw [Moment.collection?, hm]
  rw [Moment.returned?, hr] at hf
  cases effect with
  | create wish name made answers => cases hf
  | keep keeps members issued filed told =>
      obtain ⟨name, p, named, holder, found⟩ := told f hf
      obtain ⟨k, number, n, hn, resolves⟩ := h.filed found
      refine ⟨k, ?_, n, List.mem_append_left _ hn, resolves⟩
      rw [named, Option.bind_some, collection?_of_holder? holder, number]
  | @assign name p source a _ holder state fresh found keeps issued settled filed =>
      obtain rfl := Option.some.inj hf
      obtain ⟨k, number⟩ := Registry.number?_of_state? state
      have collection := (collection?_of_holder? holder).trans number
      exact ⟨k, collection, m, List.mem_append_right _ (List.mem_singleton_self m), name, hm,
        collection, (filed?_of_holder? holder).trans fresh, hr⟩

end Grounded

theorem resolved_of_returned {files : FileSystem} {steps : List Step} {m : Moment} {f : Filed}
    (hm : m ∈ (start files).moments steps) (hf : m.returned? = some f) :
    ∃ k, m.collection? = some k ∧ ∃ n ∈ (start files).moments steps, n.Resolves k f := by
  obtain ⟨past, later, run⟩ := List.append_of_mem hm
  obtain ⟨k, hk, n, hn, found⟩ := (grounded_before run).returned hf
  refine ⟨k, hk, n, ?_, found⟩
  rw [run.trans (List.append_cons ..)]
  exact List.mem_append_left _ hn

theorem provenance (files : FileSystem) (steps : List Step) (m : Moment)
    (hm : m ∈ (start files).moments steps) (k : Nat) (hk : m.collection? = some k) :
    ∃ members, (made ((start files).moments steps))[k]? = some members ∧
      (∀ f, m.returned? = some f →
        (Listing.mk members).outcome Search.assignment = .ok f.assignment ∧
        (∃ n ∈ (start files).moments steps, n.Resolves k f) ∧
        ∀ n ∈ (start files).moments steps, ∀ l g, n.Resolves l g → g.number = f.number → l = k) ∧
      ∀ name, m.step = .fetch name → ∃ source, m.before.source? name = some source ∧
        ((∃ f, m.reply = .assigned f) ∨ ∃ e, m.reply = .failed e) ∧
        ∀ e, m.reply = .failed e ↔ m.before.filed? name = none ∧
          source.outcome Search.assignment m.before.world = .error e := by
  have whole := grounded_of_run files steps
  obtain ⟨past, later, run⟩ := List.append_of_mem hm
  obtain ⟨name, named, standing⟩ := Option.bind_eq_some_iff.mp hk
  obtain ⟨members, contents⟩ := (grounded_before run).contents_of_collection? standing
  have members_eq : (made ((start files).moments steps))[k]? = some members :=
    run ▸ getElem?_made_append contents _
  refine ⟨members, members_eq, fun f hf => ?_, fun other fetched => ?_⟩
  · obtain ⟨l, hl, n, hn, found⟩ := resolved_of_returned hm hf
    obtain rfl : k = l := Option.some.inj (hk.symm.trans hl)
    obtain ⟨ms, hms, outcome⟩ := whole.chosen hn found
    obtain rfl : members = ms := Option.some.inj (members_eq.symm.trans hms)
    refine ⟨outcome, ⟨n, hn, found⟩, fun n' hn' l g other same => ?_⟩
    exact (whole.unique hn' hn other found same).1
  · obtain rfl : other = name := by
      rw [fetched] at named
      exact Option.some.inj named
    obtain ⟨source, state⟩ := source?_of_collection? standing
    have reply : m.reply = (m.before.step (.fetch other)).1 := by rw [Moment.reply, fetched]
    rw [reply]
    exact ⟨source, state, reply_fetch_total state, reply_fetch_eq_failed_iff state⟩

def soleAuthority : Member := ⟨⟨0, 0⟩, ⟨"CN=Root", "CN=Root", "01", .authority none, none, none⟩⟩

-- A collection takes over the name of an equal one that is gone while its slot is still there.
theorem provenance_after_takeover :
    let steps := [.list 0 "store" [soleAuthority], .fetch "store", .drop "store",
      .list 0 "store" [soleAuthority], .fetch "store"]
    let m : Moment := ⟨(start (.bare [])).advance (steps.take 4), .fetch "store"⟩
    m ∈ (start (.bare [])).moments steps ∧ m.collection? = some 1 ∧
      m.returned? = some ⟨1, soleAuthority, soleAuthority, soleAuthority⟩ ∧
      ∀ n ∈ (start (.bare [])).moments steps, ∀ l g, n.Resolves l g → g.number = 1 → l = 1 := by
  intro steps m
  have hm : m ∈ (start (.bare [])).moments steps :=
    .tail _ (.tail _ (.tail _ (.tail _ (.head _))))
  have hk : m.collection? = some 1 := rfl
  obtain ⟨members, -, own, -⟩ := provenance (.bare []) steps m hm 1 hk
  exact ⟨hm, hk, rfl, (own ⟨1, soleAuthority, soleAuthority, soleAuthority⟩ rfl).2.2⟩

end TrustRoles.Session
