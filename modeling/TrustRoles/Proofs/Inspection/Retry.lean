import TrustRoles.Proofs.Inspection.Reply
import TrustRoles.Proofs.Interruption
import TrustRoles.Proofs.Session.Effect

namespace TrustRoles

namespace Listing

variable {l : Listing}

theorem hasAuthority_of_outcome {a : Assignment} (found : l.outcome Search.assignment = .ok a) :
    l.hasAuthority = true := by
  rw [← isSome_issuer?, (outcome_assignment_eq_ok_iff.mp found).1, Option.isSome_some]

theorem not_hasAuthority_of_outcome {e : RoleFailure}
    (missing : l.outcome Search.assignment = .error e) : l.hasAuthority = false := by
  simpa [hasAuthority] using (outcome_assignment_eq_error_iff.mp missing).2

end Listing

namespace Inspection

variable {l : Listing} {m : Memo} {p : Nat} {alive : Nat → Bool}

def reportOf (a : Assignment) : Answer → Except Fault Report
  | .error f => .error (.roles (.query f))
  | .ok members => .ok (.ofMembers members a)

theorem run_conclude_scripted (m : Memo) (filed : Filed) (s : Scripted) (w : World) :
    (World.run ((Source.scripted s).consult (conclude m (.ok filed))) w).1 =
      ((reportOf filed.assignment (s.answer .any).1, m), .scripted (s.answer .any).2) := by
  refine (Scripted.carryOut_scripted s _ w).trans ?_
  have asked : Scripted.run (conclude m (.ok filed)) s =
      Scripted.run (finish m filed (s.answer .any).1) (s.answer .any).2 := rfl
  rw [asked]
  cases (s.answer .any).1 with
  | error f => rfl
  | ok members => rfl

def ending (m : Memo) (p : Nat) (s : Scripted) :
    Except RoleFailure Assignment → (Except Fault Report × Memo) × Source
  | .error e => ((.error (.roles e), m), .scripted s)
  | .ok a => ((reportOf a (s.answer .any).1, m.file p a), .scripted (s.answer .any).2)

theorem run_inspect_of_search (alive : Nat → Bool) (unfiled : m.filed? p = none)
    {source : Source} {s : Scripted} {r : Except RoleFailure Assignment} (searched : ∀ v,
      (World.run (source.consult Search.assignment.run) v).1 = (r, .scripted s)) (w : World) :
    ∃ x, World.run (source.consult (inspect alive p m)) w =
      (ending (m.ready alive p) p s r, x) := by
  obtain ⟨v, r', after, x, -, found, ran⟩ := Memo.run_fetch_of_not_filed alive unfiled source w
  have same := searched v
  rw [found] at same
  obtain ⟨rfl, rfl⟩ := Prod.mk.inj same
  rw [run_inspect_of_fetch ran]
  cases r' with
  | error e => exact ⟨x, rfl⟩
  | ok a =>
      have concluded := run_conclude_scripted ((m.ready alive p).file p a) ⟨m.issued, a⟩ s x
      exact ⟨_, Prod.ext concluded rfl⟩

def questions (l : Listing) : Option Filed → List Criterion
  | some _ => [.any]
  | none => l.asked Search.assignment ++ if l.hasAuthority then [.any] else []

theorem run_inspect_sound (live : alive p = true)
    (backed : ∀ filed, m.filed? p = some filed →
      l.outcome Search.assignment = .ok filed.assignment)
    (f : QueryFailure) (asked : List Criterion) (w : World) :
    ∃ m' x, World.run ((Source.scripted ⟨l.oracle, none, f, asked⟩).consult (inspect alive p m)) w =
        (((reply (.ok l.members), m'),
          .scripted ⟨l.oracle, none, f, asked ++ questions l (m.filed? p)⟩), x) ∧
      m'.places = (m.ready alive p).places := by
  have inventoried (cs : List Criterion) : (Scripted.mk l.oracle none f cs).answer .any =
      (.ok l.members, ⟨l.oracle, none, f, cs ++ [.any]⟩) :=
    Prod.ext (congrArg Except.ok l.select_any) rfl
  cases filed : m.filed? p with
  | some g =>
      obtain ⟨v, -, ran⟩ := Memo.run_fetch_of_filed live filed
        (.scripted ⟨l.oracle, none, f, asked⟩) w
      have concluded := run_conclude_scripted (m.ready alive p) g ⟨l.oracle, none, f, asked⟩ v
      rw [inventoried] at concluded
      refine ⟨m.ready alive p, _, (run_inspect_of_fetch ran).trans (Prod.ext ?_ rfl), rfl⟩
      rw [concluded, reply, backed g filed]
      rfl
  | none =>
      obtain ⟨x, ran⟩ := run_inspect_of_search alive filed
        (l.run_search_sound f asked Search.assignment) w
      rw [ran, reply, questions]
      cases found : l.outcome Search.assignment with
      | error e =>
          refine ⟨m.ready alive p, x, ?_, rfl⟩
          simp [ending, Listing.not_hasAuthority_of_outcome found]
      | ok a =>
          refine ⟨(m.ready alive p).file p a, x, ?_, Memo.places_file ..⟩
          simp [ending, Listing.hasAuthority_of_outcome found, inventoried, reportOf]

inductive Tried (l : Listing) (n : Nat) (f : QueryFailure) :
    Except Fault Report → Option Assignment → Prop
  | interrupted (short : n < (l.asked Search.assignment).length) :
      Tried l n f (.error (.roles (.query f))) none
  | missing {e : RoleFailure} (whole : (l.asked Search.assignment).length ≤ n)
      (missing : l.outcome Search.assignment = .error e) : Tried l n f (.error (.roles e)) none
  | unlisted {a : Assignment} (last : n = (l.asked Search.assignment).length)
      (found : l.outcome Search.assignment = .ok a) :
      Tried l n f (.error (.roles (.query f))) (some a)
  | reported {a : Assignment} (late : (l.asked Search.assignment).length < n)
      (found : l.outcome Search.assignment = .ok a) :
      Tried l n f (.ok (.ofMembers l.members a)) (some a)

theorem run_inspect_failing (l : Listing) (n : Nat) (f : QueryFailure) (alive : Nat → Bool)
    (unfiled : m.filed? p = none) (w : World) :
    ∃ report found m' asked x,
      World.run ((Source.scripted ⟨l.oracle, some n, f, []⟩).consult (inspect alive p m)) w =
        (((report, m'), .scripted ⟨l.oracle, some n, f, asked⟩), x) ∧
      m'.places = (m.ready alive p).places ∧ m'.filed? p = found.map (Filed.mk m.issued) ∧
      Tried l n f report found := by
  have inventoried (cs : List Criterion) : ((Scripted.mk l.oracle (some n) f cs).answer .any).1 =
      if n ≤ cs.length then .error f else .ok l.members := by
    rw [← l.select_any]
    rfl
  have empty : (m.ready alive p).filed? p = none := by
    rw [Memo.filed?_ready, unfiled, ite_self]
  have searched (v : World) := l.run_assignment_failing n f v
  by_cases short : n < (l.asked Search.assignment).length
  · simp only [if_pos short] at searched
    obtain ⟨x, ran⟩ := run_inspect_of_search alive unfiled searched w
    exact ⟨_, none, _, _, x, ran, rfl, empty, .interrupted short⟩
  · simp only [if_neg short] at searched
    obtain ⟨x, ran⟩ := run_inspect_of_search alive unfiled searched w
    have whole := Nat.le_of_not_lt short
    cases found : l.outcome Search.assignment with
    | error e =>
        rw [found] at ran
        exact ⟨_, none, _, _, x, ran, rfl, empty, .missing whole found⟩
    | ok a =>
        rw [found, ending, inventoried] at ran
        refine ⟨_, some a, _, _, x, ran, Memo.places_file .., ?_, ?_⟩
        · rw [Memo.filed?_file (Memo.mem_places_ready.mpr (.inl rfl)), if_pos rfl,
            Memo.issued_ready, Option.map_some]
        · by_cases last : n ≤ (l.asked Search.assignment).length
          · rw [if_pos last]
            exact .unlisted (Nat.le_antisymm last whole) found
          · rw [if_neg last]
            exact .reported (Nat.lt_of_not_le last) found

namespace Tried

variable {n : Nat} {f : QueryFailure} {report : Except Fault Report}
  {found : Option Assignment}

theorem outcome {a : Assignment} (h : Tried l n f report (some a)) :
    l.outcome Search.assignment = .ok a := by
  cases h with
  | unlisted last found => exact found
  | reported late found => exact found

theorem of_lt (h : Tried l n f report found) (short : n < (l.asked Search.assignment).length) :
    report = .error (.roles (.query f)) ∧ found = none := by
  cases h with
  | interrupted _ => exact ⟨rfl, rfl⟩
  | missing whole _ => exact absurd short (Nat.not_lt_of_le whole)
  | unlisted last _ => exact absurd last (Nat.ne_of_lt short)
  | reported late _ => exact absurd short (Nat.lt_asymm late)

theorem of_eq (h : Tried l n f report found) (authority : l.hasAuthority = true)
    (last : n = (l.asked Search.assignment).length) :
    report = .error (.roles (.query f)) ∧ ∃ a, found = some a := by
  cases h with
  | interrupted short => exact absurd last (Nat.ne_of_lt short)
  | missing _ missing =>
      cases authority.symm.trans (Listing.not_hasAuthority_of_outcome missing)
  | unlisted _ found => exact ⟨rfl, _, rfl⟩
  | reported late _ => exact absurd last.symm (Nat.ne_of_lt late)

theorem of_late (h : Tried l n f report found) (late : (l.asked Search.assignment).length < n ∨
    (l.asked Search.assignment).length ≤ n ∧ l.hasAuthority = false) :
    report = reply (.ok l.members) := by
  cases h with
  | interrupted short => omega
  | missing _ missing => simp [reply, missing]
  | unlisted last found =>
      have authority := Listing.hasAuthority_of_outcome found
      rcases late with late | ⟨-, none⟩
      · omega
      · cases authority.symm.trans none
  | reported _ found => simp [reply, found]

end Tried

end Inspection

theorem Registry.holder?_bind {κ : Type} (r : Registry κ) (name : String) (p : Nat) :
    (r.bind name p).holder? name = some p := by
  have dropped : (r.drop name).names.lookup name = none := by
    simp [drop, List.lookup_eq_none_iff]
    grind
  rw [holder?, bind, List.lookup_append, dropped]
  simp

def Source.asked : Source → List Criterion
  | scripted s => s.asked
  | _ => []

namespace Session

def report? (s : Session) (name : String) : Option (Except Fault Report × Session) :=
  (s.registry.holder? name).bind s.inspect

def asked (s : Session) (name : String) : List Criterion :=
  ((s.source? name).map Source.asked).getD []

structure Stands (s : Session) (name : String) (p : Nat) (source : Source) : Prop where
  holder : s.registry.holder? name = some p
  state : s.registry.state? p = some source

namespace Stands

variable {s : Session} {name : String} {p : Nat} {source : Source}

theorem alive (h : s.Stands name p source) : s.registry.alive p = true :=
  Registry.alive_iff.mpr (Registry.mem_places_of_holder? h.holder)

theorem asked (h : s.Stands name p source) : s.asked name = source.asked := by
  rw [Session.asked, source?, h.holder, Option.bind_some, h.state, Option.map_some,
    Option.getD_some]

theorem peek (h : s.Stands name p source) :
    (s.step (.peek name)).1 = .peeked (s.memo.filed? p) := by
  rw [step, access_of_holder? h.holder, Option.getD_some,
    peek_of_mem (Registry.mem_places_of_holder? h.holder)]

theorem update (h : s.Stands name p source) (f : Source → Source) (w : World) (m : Memo) :
    Stands ⟨w, s.registry.update p f, m⟩ name p (f source) where
  holder := h.holder
  state := by rw [Registry.state?_update, h.state, Option.map_some, if_pos rfl]

theorem failFrom (h : s.Stands name p source) (n : Option Nat) :
    (s.step (.failFrom name n)).2.Stands name p (source.failFrom n) ∧
      (s.step (.failFrom name n)).2.memo = s.memo := by
  rw [step, access_of_holder? h.holder, Option.getD_some]
  exact ⟨h.update (Source.failFrom n) s.world s.memo, rfl⟩

theorem report? (h : s.Stands name p source) {r : Except Fault Report} {m : Memo} {after : Source}
    {x : World} (ran : World.run
      (source.consult (Inspection.inspect s.registry.alive p s.memo)) s.world =
        (((r, m), after), x)) :
    s.report? name = some (r, ⟨x, s.registry.update p fun _ => after, m⟩) := by
  rw [Session.report?, h.holder, Option.bind_some]
  simp only [inspect, consult, h.state, Option.map_some, run, ran]

theorem reports_sound {l : Listing} {f : QueryFailure} {asked : List Criterion}
    (h : s.Stands name p (.scripted ⟨l.oracle, none, f, asked⟩))
    (backed : ∀ g, s.memo.filed? p = some g → l.outcome Search.assignment = .ok g.assignment) :
    ∃ after, s.report? name = some (Inspection.reply (.ok l.members), after) ∧
      after.memo.places = (s.memo.ready s.registry.alive p).places ∧
      after.asked name = asked ++ Inspection.questions l (s.memo.filed? p) := by
  obtain ⟨m, x, ran, places⟩ := Inspection.run_inspect_sound h.alive backed f asked s.world
  exact ⟨_, h.report? ran, places, (h.update (fun _ => _) x m).asked⟩

theorem reports_failing {l : Listing} {n : Nat} {f : QueryFailure}
    (h : s.Stands name p (.scripted ⟨l.oracle, some n, f, []⟩)) (unfiled : s.memo.filed? p = none) :
    ∃ report found cs after, s.report? name = some (report, after) ∧
      after.Stands name p (.scripted ⟨l.oracle, some n, f, cs⟩) ∧
      after.memo.places = (s.memo.ready s.registry.alive p).places ∧
      after.memo.filed? p = found.map (Filed.mk s.memo.issued) ∧
      Inspection.Tried l n f report found := by
  obtain ⟨report, found, m, cs, x, ran, places, filed, tried⟩ :=
    Inspection.run_inspect_failing l n f s.registry.alive unfiled s.world
  exact ⟨report, found, cs, _, h.report? ran, h.update (fun _ => _) x m, places, filed, tried⟩

theorem create (files : FileSystem) (wish : Nat) (name : String) (members : List Member)
    (failsFrom : Option Nat) (f : QueryFailure) :
    ((start files).step (.create wish name members failsFrom f)).2.Stands name wish
      (.scripted ⟨(Listing.mk members).oracle, failsFrom, f, []⟩) := by
  have vacant : (start files).vacant wish = wish := Registry.vacant_of_free List.not_mem_nil
  constructor
  · exact (Registry.holder?_bind ..).trans (congrArg some vacant)
  · exact (state?_holdNear ..).trans (if_pos vacant.symm)

end Stands

theorem retry (files : FileSystem) (wish : Nat) (name : String) (members : List Member) (n : Nat)
    (f : QueryFailure) :
    let l : Listing := ⟨members⟩
    let k := (l.asked Search.assignment).length
    let made (failsFrom : Option Nat) :=
      ((start files).step (.create wish name members failsFrom f)).2
    let sound := Inspection.reply (.ok members)
    ∃ steady reply first again second,
      (made none).report? name = some (sound, steady) ∧
      (made (some n)).report? name = some (reply, first) ∧
      (first.step (.failFrom name none)).2.report? name = some (again, second) ∧
      (n < k → reply = .error (.roles (.query f)) ∧ (first.step (.peek name)).1 = .peeked none) ∧
      (∀ m ∈ members, m.isAuthority = true → n = k → reply = .error (.roles (.query f)) ∧
        ∃ a, l.outcome Search.assignment = .ok a ∧
          (first.step (.peek name)).1 = .peeked (some ⟨0, a⟩)) ∧
      (k < n ∨ k ≤ n ∧ (∀ m ∈ members, m.isAuthority = false) → reply = sound) ∧
      first.memo.size = 1 ∧ again = sound ∧ second.memo.size = 1 ∧
      second.asked name = first.asked name ++ Inspection.questions l (first.filed? name) := by
  intro l k made sound
  have stands (o : Option Nat) : (made o).Stands name wish (.scripted ⟨l.oracle, o, f, []⟩) :=
    .create files wish name members o f
  have unfiled (o : Option Nat) : (made o).memo.filed? wish = none := rfl
  obtain ⟨steady, soundly, -⟩ := (stands none).reports_sound fun g filed => by
    cases (unfiled none).symm.trans filed
  obtain ⟨reply, found, cs, first, failing, stood, places, filed, tried⟩ :=
    (stands (some n)).reports_failing (unfiled (some n))
  obtain ⟨cleared, kept⟩ := stood.failFrom none
  obtain ⟨second, again, left, asked⟩ := cleared.reports_sound fun g standing => by
    rw [kept, filed] at standing
    obtain ⟨a, rfl, rfl⟩ := Option.map_eq_some_iff.mp standing
    exact tried.outcome
  have one : first.memo.places = [wish] := places
  refine ⟨steady, reply, first, _, second, soundly, failing, again, fun short => ?_,
    fun m member authority last => ?_, fun late => ?_, ?_, rfl, ?_, ?_⟩
  · obtain ⟨replied, rfl⟩ := tried.of_lt short
    exact ⟨replied, stood.peek.trans (congrArg Reply.peeked filed)⟩
  · obtain ⟨replied, a, rfl⟩ := tried.of_eq (List.any_eq_true.mpr ⟨m, member, authority⟩) last
    exact ⟨replied, a, tried.outcome, stood.peek.trans (congrArg Reply.peeked filed)⟩
  · refine tried.of_late (late.imp_right fun ⟨whole, ends⟩ => ⟨whole, ?_⟩)
    simpa [Listing.hasAuthority] using ends
  · rw [Memo.size_eq, one, List.length_singleton]
  · rw [Memo.size_eq, left, kept, Memo.places_ready_of_mem cleared.alive (by simp [one]), one,
      List.filter_cons_of_pos cleared.alive, List.filter_nil, List.length_singleton]
  · rw [asked, stood.asked, filed?_of_holder? stood.holder, kept]
    rfl

end Session

end TrustRoles
