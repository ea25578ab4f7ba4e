import TrustRoles.Proofs.Files.Snapshot
import TrustRoles.Proofs.Memo
import TrustRoles.Session.Step

namespace TrustRoles

variable {α : Type}

namespace Source

def contents? (disk : FileSystem) : Source → Option (Except Fault (List Member))
  | listing l => some (.ok l.members)
  | scripted _ => none
  | files s => some (match s.loaded with
      | some members => .ok members
      | none => s.onDisk disk)

def Settled (members : List Member) : Source → Prop
  | listing l => l.members = members
  | scripted _ => False
  | files s => s.loaded = some members

/-- The assignment is the one a search finds, where the answers are by fixed members. -/
inductive Backs (a : Assignment) : Source → Prop
  | scripted (s : Scripted) : Backs a (scripted s)
  | settled {source : Source} {members : List Member} (settled : source.Settled members)
      (chosen : (Listing.mk members).outcome Search.assignment = .ok a) : Backs a source

variable {source : Source} {members : List Member} {a : Assignment}
  {contents : Except Fault (List Member)}

theorem Settled.contents? (h : source.Settled members) (disk : FileSystem) :
    source.contents? disk = some (.ok members) := by
  cases source with
  | listing l => exact congrArg (fun ms => some (Except.ok ms)) h
  | scripted s => exact h.elim
  | files s =>
      have loaded : s.loaded = some members := h
      rw [Source.contents?, loaded]

theorem Settled.run_consult (h : source.Settled members) (i : Consultation α) (w : World) :
    ∃ x, World.run (source.consult i) w =
      ((((Listing.mk members).oracle.consult i []).1, source), x) := by
  cases source with
  | listing l =>
      have same : l = ⟨members⟩ := congrArg Listing.mk h
      rw [same]
      exact ⟨_, Prod.ext (carryOut_listing ⟨members⟩ i [] w) rfl⟩
  | scripted s => exact h.elim
  | files s =>
      obtain ⟨answers, kept⟩ :=
        Shelf.consultAmid_of_loaded (s := ⟨s, w⟩) h (fun _ => w.files) i []
      have ran := Shelf.run_consult ⟨s, w⟩ i []
      rw [answers, kept] at ran
      exact ⟨_, ran⟩

theorem run_search_of_contents? {w : World} (h : source.contents? w.files = some contents) :
    ∃ after x, World.run (source.consult Search.assignment.run) w =
        (((match contents with
          | .error f => .error (.query f.toQueryFailure)
          | .ok members => (Listing.mk members).outcome Search.assignment), after), x) ∧
      ∀ members, contents = .ok members → after.Settled members := by
  cases source with
  | listing l =>
      obtain rfl := Option.some.inj h
      have here : (listing l).Settled l.members := rfl
      obtain ⟨x, ran⟩ := here.run_consult Search.assignment.run w
      exact ⟨listing l, x, ran, fun members same => Except.ok.inj same⟩
  | scripted s => cases h
  | files s =>
      have ran := Shelf.run_consult ⟨s, w⟩ Search.assignment.run []
      rcases Shelf.consultAmid_assignment ⟨s, w⟩ fun _ => w.files with
        ⟨f, unread, fault, failed, -⟩ | ⟨snapshot, origin, settled, found⟩
      · dsimp only at unread fault
        rw [Source.contents?, unread, fault] at h
        obtain rfl := Option.some.inj h
        rw [failed] at ran
        exact ⟨_, _, ran, fun members same => by cases same⟩
      · have held : (files s).contents? w.files = some (.ok snapshot) := by
          rcases origin with read | ⟨unread, fresh⟩
          · dsimp only at read
            rw [Source.contents?, read]
          · dsimp only at unread fresh
            rw [Source.contents?, unread, fresh]
        obtain rfl := Option.some.inj (held.symm.trans h)
        rw [found] at ran
        exact ⟨_, _, ran, fun members same => Except.ok.inj same ▸ settled⟩

theorem Backs.exists_settled (backs : source.Backs a) {disk : FileSystem}
    (h : source.contents? disk = some contents) : ∃ members, contents = .ok members ∧
      source.Settled members ∧ (Listing.mk members).outcome Search.assignment = .ok a := by
  cases backs with
  | scripted s => cases h
  | settled settled chosen =>
      obtain rfl := Option.some.inj ((settled.contents? disk).symm.trans h)
      exact ⟨_, rfl, settled, chosen⟩

theorem Backs.consult (backs : source.Backs a) (i : Consultation α) (w : World) :
    (World.run (source.consult i) w).1.2.Backs a := by
  cases backs with
  | scripted s =>
      unfold Source.consult
      rw [s.carryOut_scripted i w]
      exact .scripted _
  | settled settled chosen =>
      obtain ⟨x, ran⟩ := settled.run_consult i w
      rw [ran]
      exact .settled settled chosen

theorem Backs.failFrom (backs : source.Backs a) (n : Option Nat) : (source.failFrom n).Backs a := by
  cases source with
  | listing l => exact backs
  | scripted s => exact .scripted _
  | files s => exact backs

theorem backs_of_search {w x : World} {after : Source}
    (h : World.run (source.consult Search.assignment.run) w = ((.ok a, after), x)) :
    after.Backs a := by
  cases held : source.contents? w.files with
  | none =>
      cases source with
      | listing l => cases held
      | files s => cases held
      | scripted s =>
          have ran := s.carryOut_scripted Search.assignment.run w
          unfold Source.consult at h
          rw [h] at ran
          rw [show after = _ from congrArg Prod.snd ran]
          exact .scripted _
  | some contents =>
      obtain ⟨after', x', ran, settled⟩ := run_search_of_contents? held
      obtain ⟨same, -⟩ := Prod.mk.inj (h.symm.trans ran)
      obtain ⟨found, rfl⟩ := Prod.mk.inj same
      cases contents with
      | error f => cases found
      | ok members => exact .settled (settled members rfl) found.symm

end Source

namespace Memo

variable {m : Memo} {p : Nat} {source : Source}

def Adds (m after : Memo) (p : Nat) (source : Source) : Prop :=
  ∀ q f, after.filed? q = some f → m.filed? q = some f ∨ q = p ∧ source.Backs f.assignment

theorem adds_ready (alive : Nat → Bool) : m.Adds (m.ready alive p) p source := by
  intro q f filed
  rw [filed?_ready] at filed
  split at filed
  · exact .inl filed
  · cases filed

theorem adds_settled {alive : Nat → Bool} {r : Except RoleFailure Assignment}
    (backs : ∀ a, r = .ok a → source.Backs a) :
    m.Adds ((m.ready alive p).settled p r) p source := by
  cases r with
  | error e => exact adds_ready alive
  | ok a =>
      intro q f filed
      have reserved : p ∈ (m.ready alive p).places := mem_places_ready.mpr (.inl rfl)
      rw [settled, filed?_file reserved] at filed
      split at filed
      · rename_i here
        obtain rfl := Option.some.inj filed
        exact .inr ⟨here, backs a rfl⟩
      · exact adds_ready alive q f filed

def Finds (contents : Except Fault (List Member)) (r : Except RoleFailure Filed) (after : Source) :
    Prop :=
  match contents with
  | .error f => r = .error (.query f.toQueryFailure)
  | .ok members => after.Settled members ∧
      r.map Filed.assignment = (Listing.mk members).outcome Search.assignment

theorem run_fetch_backed {alive : Nat → Bool} (live : alive p = true)
    (backed : ∀ f, m.filed? p = some f → source.Backs f.assignment) (w : World) :
    ∃ r m' after x, World.run (source.consult (m.fetch alive p)) w = (((r, m'), after), x) ∧
      (∀ a, source.Backs a → after.Backs a) ∧ m.Adds m' p after ∧
      ∀ contents, source.contents? w.files = some contents → Finds contents r after := by
  cases filed : m.filed? p with
  | some f =>
      obtain ⟨v, -, ran⟩ := run_fetch_of_filed live filed source w
      refine ⟨_, _, _, v, ran, fun a backs => backs, adds_ready alive, fun contents held => ?_⟩
      obtain ⟨members, rfl, settled, chosen⟩ := (backed f filed).exists_settled held
      exact ⟨settled, chosen.symm⟩
  | none =>
      obtain ⟨v, r, after, x, files, searched, ran⟩ := run_fetch_of_not_filed alive filed source w
      refine ⟨_, _, after, x, ran, fun a backs => ?_, adds_settled fun a found => ?_,
        fun contents held => ?_⟩
      · have kept := backs.consult Search.assignment.run v
        rwa [searched] at kept
      · exact Source.backs_of_search (found ▸ searched)
      · rw [← files] at held
        obtain ⟨after', x', searched', settled⟩ := Source.run_search_of_contents? held
        obtain ⟨same, -⟩ := Prod.mk.inj (searched.symm.trans searched')
        obtain ⟨rfl, rfl⟩ := Prod.mk.inj same
        cases contents with
        | error f => rfl
        | ok members =>
            refine ⟨settled members rfl, ?_⟩
            dsimp only
            cases (Listing.mk members).outcome Search.assignment <;> rfl

end Memo

end TrustRoles
