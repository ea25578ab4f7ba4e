import TrustRoles.Proofs.Consultation
import TrustRoles.Proofs.KeyUsage

namespace TrustRoles

namespace Profile

def isFitFor (p : Profile) (u : Usage) : Bool :=
  !p.isAuthority && p.keyUsage.all fun k => k.permits u

def isMarkedFor (p : Profile) (u : Usage) : Bool :=
  !p.isAuthority && p.keyUsage.any fun k => k.permits u

theorem isFitFor_eq_isMarkedFor {p : Profile} {u v : Usage} (h : p.isFitFor v = false) :
    p.isFitFor u = p.isMarkedFor u := by
  unfold isFitFor isMarkedFor at *
  cases hk : p.keyUsage with
  | some k => rfl
  | none =>
      rw [hk] at h
      simp only [Option.all_none, Option.any_none, Bool.and_true, Bool.and_false] at h ⊢
      exact h

theorem not_isAuthority_of_isFitFor {p : Profile} {u : Usage} (h : p.isFitFor u = true) :
    p.isAuthority = false := by
  simp only [isFitFor, Bool.and_eq_true, Bool.not_eq_true'] at h
  exact h.1

theorem not_isAuthority_of_isMarkedFor {p : Profile} {u : Usage} (h : p.isMarkedFor u = true) :
    p.isAuthority = false := by
  simp only [isMarkedFor, Bool.and_eq_true, Bool.not_eq_true'] at h
  exact h.1

end Profile

namespace Criterion

theorem accepts_issuing (p : Profile) : issuing.accepts p = p.isAuthority := by
  have least : (p.standing.allowance.any fun n => (0 : UInt32) ≤ n) = p.standing.allowance.isSome := by
    cases p.standing.allowance with
    | none => rfl
    | some n => simp
  simp only [accepts, issuing, authorityWith, Option.all_some, StandingTest.accepts, least,
    Standing.isSome_allowance, Bool.and_true]
  rfl

theorem accepts_endEntityFor (u : Usage) (p : Profile) :
    (endEntityFor u).accepts p = p.isFitFor u := by
  unfold accepts endEntityFor Profile.isFitFor
  cases p.keyUsage with
  | none => rfl
  | some k => simp [StandingTest.accepts, KeyUsage.covers_only, Profile.isAuthority]

end Criterion

namespace Listing

def issuer? (l : Listing) : Option Member :=
  l.members.find? Member.isAuthority

def fit? (l : Listing) (u : Usage) : Option Member :=
  l.members.find? fun m => m.profile.isFitFor u

def marked? (l : Listing) (u : Usage) : Option Member :=
  l.members.find? fun m => m.profile.isMarkedFor u

def signer? (l : Listing) : Option Member :=
  (l.fit? .digitalSignature).or l.issuer?

def recipient? (l : Listing) : Option Member :=
  ((l.fit? .keyEncipherment).or (l.marked? .dataEncipherment)).or l.issuer?

def required : Option Member → Except RoleFailure Member
  | some m => .ok m
  | none => .error (.notFound .issuer)

theorem select_any (l : Listing) : l.select .any = l.members :=
  List.filter_eq_self.mpr fun _ _ => rfl

@[simp] theorem outcome_first? (l : Listing) (c : Criterion) :
    l.outcome (Search.first? c) = .ok (l.members.find? fun m => c.accepts m.profile) := by
  have first : (l.members.find? fun m => c.accepts m.profile) = (l.select c).head? :=
    List.head?_filter.symm
  unfold Search.first?
  rw [first, outcome_bind, outcome_ask]
  cases l.select c with
  | nil => rfl
  | cons m rest => rfl

theorem outcome_issuer (l : Listing) : l.outcome Search.issuer = required l.issuer? := by
  simp only [Search.issuer, outcome_bind, outcome_note, outcome_first?, Except.bind,
    Criterion.accepts_issuing]
  change _ = required (l.members.find? fun m => m.profile.isAuthority)
  cases l.members.find? fun m => m.profile.isAuthority with
  | none => rfl
  | some m => rfl

theorem outcome_endEntity? (l : Listing) (u : Usage) :
    l.outcome (Search.endEntity? u) = .ok (l.fit? u) := by
  simp only [Search.endEntity?, outcome_bind, outcome_note, outcome_first?, Except.bind,
    Criterion.accepts_endEntityFor]
  rfl

theorem outcome_endEntityOrIssuer (l : Listing) (us : List Usage) :
    l.outcome (Search.endEntityOrIssuer us) = required ((us.findSome? l.fit?).or l.issuer?) := by
  induction us with
  | nil => exact l.outcome_issuer
  | cons u us ih =>
      simp only [Search.endEntityOrIssuer, outcome_bind, outcome_endEntity?, Except.bind,
        List.findSome?_cons]
      cases l.fit? u with
      | none => exact ih
      | some m => rfl

theorem fit?_eq_marked? {l : Listing} {u v : Usage} (h : l.fit? v = none) :
    l.fit? u = l.marked? u := by
  have unfit : ∀ m ∈ l.members, m.profile.isFitFor v = false := by
    simpa only [fit?, List.find?_eq_none, Bool.not_eq_true] using h
  unfold fit? marked?
  rw [← List.head?_filter, ← List.head?_filter]
  exact congrArg List.head? (List.filter_congr fun m hm =>
    Profile.isFitFor_eq_isMarkedFor (unfit m hm))

theorem outcome_signer (l : Listing) : l.outcome Search.signer = required l.signer? := by
  rw [Search.signer, outcome_endEntityOrIssuer]
  cases hs : l.fit? .digitalSignature with
  | none => simp [signer?, hs]
  | some m => simp [signer?, hs]

theorem outcome_recipient (l : Listing) : l.outcome Search.recipient = required l.recipient? := by
  rw [Search.recipient, outcome_endEntityOrIssuer]
  unfold recipient?
  cases hk : l.fit? .keyEncipherment with
  | some m => simp [hk]
  | none =>
      rw [← fit?_eq_marked? hk]
      cases hd : l.fit? .dataEncipherment with
      | some m => simp [hk, hd]
      | none => simp [hk, hd]

theorem outcome_noteMembers (l : Listing) (k : Nat) (ms : List Member) :
    l.outcome (Search.noteMembers k ms) = .ok () := by
  induction ms generalizing k with
  | nil => rfl
  | cons m ms ih =>
      rw [Search.noteMembers, outcome_bind, outcome_note]
      exact ih (k + 1)

theorem outcome_inventory (l : Listing) : l.outcome Search.inventory = .ok () := by
  simp only [Search.inventory, outcome_bind, outcome_ask, outcome_note, Except.bind,
    outcome_noteMembers]

theorem outcome_settle (l : Listing) (role : Role) (s : Search Member) :
    l.outcome (Search.settle role s) = l.outcome s := by
  simp only [Search.settle, outcome_bind, outcome_note, outcome_pure, Except.bind]
  cases l.outcome s with
  | ok m => rfl
  | error f => rfl

theorem outcome_assignment (l : Listing) :
    l.outcome Search.assignment = (required l.recipient?).bind fun r =>
      (required l.signer?).bind fun s => (required l.issuer?).bind fun i => .ok ⟨s, r, i⟩ := by
  simp only [Search.assignment, outcome_bind, outcome_inventory, outcome_settle, outcome_recipient,
    outcome_signer, outcome_issuer, outcome_pure]
  rfl

theorem outcome_assignment_eq_ok_iff {l : Listing} {a : Assignment} :
    l.outcome Search.assignment = .ok a ↔ l.issuer? = some a.issuer ∧
      l.signer? = some a.signer ∧ l.recipient? = some a.recipient := by
  rw [outcome_assignment]
  cases l.recipient? with
  | none => simp [required, Except.bind]
  | some r =>
      cases l.signer? with
      | none => simp [required, Except.bind]
      | some s =>
          cases l.issuer? with
          | none => simp [required, Except.bind]
          | some i =>
              simp only [required, Except.bind, Except.ok.injEq, Option.some.injEq]
              constructor
              · rintro rfl
                exact ⟨rfl, rfl, rfl⟩
              · rintro ⟨rfl, rfl, rfl⟩
                rfl

theorem outcome_assignment_of_issuer?_eq_none {l : Listing} (h : l.issuer? = none) :
    l.outcome Search.assignment = .error (.notFound .issuer) := by
  rw [outcome_assignment, h]
  cases l.recipient? with
  | none => rfl
  | some r =>
      cases l.signer? with
      | none => rfl
      | some s => rfl

/-- A listing of certificates kept elsewhere: one of them may be listed twice, and two of them may
say the same. -/
def ofShared (certificate : Identity → Profile) (held : List Identity) : Listing :=
  ⟨held.map fun i => ⟨i, certificate i⟩⟩

theorem profile_of_mem_ofShared {certificate : Identity → Profile} {held : List Identity}
    {m : Member} (h : m ∈ (ofShared certificate held).members) :
    m.profile = certificate m.identity := by
  obtain ⟨i, -, rfl⟩ := List.mem_map.mp h
  rfl

theorem isAuthority_of_issuer? {l : Listing} {m : Member} (h : l.issuer? = some m) :
    m.isAuthority = true :=
  List.find?_some h

theorem endEntity_of_fit? {l : Listing} {u : Usage} {m : Member} (h : l.fit? u = some m) :
    m ∈ l.members ∧ m.isAuthority = false := by
  have fits : m.profile.isFitFor u = true := by simpa using List.find?_some h
  exact ⟨List.mem_of_find?_eq_some h, Profile.not_isAuthority_of_isFitFor fits⟩

theorem endEntity_of_marked? {l : Listing} {u : Usage} {m : Member} (h : l.marked? u = some m) :
    m ∈ l.members ∧ m.isAuthority = false := by
  have marked : m.profile.isMarkedFor u = true := by simpa using List.find?_some h
  exact ⟨List.mem_of_find?_eq_some h, Profile.not_isAuthority_of_isMarkedFor marked⟩

theorem identity_eq_issuer_iff {certificate : Identity → Profile} {held : List Identity}
    {found : Option Member} {m i : Member}
    (ends : ∀ e, found = some e →
      e ∈ (ofShared certificate held).members ∧ e.isAuthority = false)
    (hi : (ofShared certificate held).issuer? = some i)
    (hm : found.or (ofShared certificate held).issuer? = some m) :
    m.identity = i.identity ↔ found = none := by
  cases found with
  | none =>
      rw [Option.none_or, hi] at hm
      simp [Option.some.inj hm]
  | some e =>
      obtain rfl : e = m := by simpa using hm
      obtain ⟨mem, ending⟩ := ends e rfl
      have distinct : e.identity ≠ i.identity := by
        intro same
        have profiles : e.profile = i.profile := by
          rw [profile_of_mem_ofShared mem,
            profile_of_mem_ofShared (List.mem_of_find?_eq_some hi), same]
        have issuing := isAuthority_of_issuer? hi
        rw [Member.isAuthority, ← profiles] at issuing
        exact Bool.false_ne_true (ending.symm.trans issuing)
      simpa using distinct

theorem isSingleAuthority_iff {certificate : Identity → Profile} {held : List Identity}
    {a : Assignment} (h : (ofShared certificate held).outcome Search.assignment = .ok a) :
    a.isSingleAuthority = true ↔ (ofShared certificate held).fit? .digitalSignature = none ∧
      (ofShared certificate held).fit? .keyEncipherment = none ∧
      (ofShared certificate held).marked? .dataEncipherment = none := by
  obtain ⟨hi, hs, hr⟩ := outcome_assignment_eq_ok_iff.mp h
  have signing := identity_eq_issuer_iff (fun e he => endEntity_of_fit? he) hi hs
  have receiving := identity_eq_issuer_iff (fun e he => by
    rcases Option.or_eq_some_iff.mp he with fit | ⟨-, marked⟩
    · exact endEntity_of_fit? fit
    · exact endEntity_of_marked? marked) hi hr
  rw [Assignment.isSingleAuthority, Bool.and_eq_true, beq_iff_eq, beq_iff_eq, signing, receiving,
    Option.or_eq_none_iff]

theorem exists_outcome_assignment_iff {l : Listing} :
    (∃ a, l.outcome Search.assignment = .ok a) ↔ ∃ m ∈ l.members, m.isAuthority = true := by
  rw [← List.find?_isSome]
  constructor
  · rintro ⟨a, ha⟩
    exact Option.isSome_of_eq_some (outcome_assignment_eq_ok_iff.mp ha).1
  · intro some
    obtain ⟨i, hi⟩ := Option.isSome_iff_exists.mp some
    change l.issuer? = _ at hi
    rw [outcome_assignment, recipient?, signer?, hi, Option.or_some, Option.or_some]
    exact ⟨_, rfl⟩

theorem outcome_assignment_eq_error_iff {l : Listing} {e : RoleFailure} :
    l.outcome Search.assignment = .error e ↔
      e = .notFound .issuer ∧ ∀ m ∈ l.members, m.isAuthority = false := by
  cases issuer : l.issuer? with
  | none =>
      have ends : ∀ m ∈ l.members, m.isAuthority = false := fun m hm => by
        simpa using List.find?_eq_none.mp issuer m hm
      rw [outcome_assignment_of_issuer?_eq_none issuer, Except.error.injEq, eq_comm]
      exact (and_iff_left ends).symm
  | some i =>
      have authority := isAuthority_of_issuer? issuer
      have held := List.mem_of_find?_eq_some issuer
      obtain ⟨a, found⟩ := exists_outcome_assignment_iff.mpr ⟨i, held, authority⟩
      refine iff_of_false (fun failed => ?_) fun none => ?_
      · cases found.symm.trans failed
      · cases authority.symm.trans (none.2 i held)

theorem get_mem_of_outcome {l : Listing} {a : Assignment}
    (h : l.outcome Search.assignment = .ok a) (role : Role) : a.get role ∈ l.members := by
  obtain ⟨issuer, signer, recipient⟩ := outcome_assignment_eq_ok_iff.mp h
  have issuing := List.mem_of_find?_eq_some issuer
  cases role with
  | issuer => exact issuing
  | signer =>
      rcases Option.or_eq_some_iff.mp signer with fit | ⟨-, stand⟩
      · exact (endEntity_of_fit? fit).1
      · exact List.mem_of_find?_eq_some stand
  | recipient =>
      rcases Option.or_eq_some_iff.mp recipient with found | ⟨-, stand⟩
      · rcases Option.or_eq_some_iff.mp found with fit | ⟨-, marked⟩
        · exact (endEntity_of_fit? fit).1
        · exact (endEntity_of_marked? marked).1
      · exact List.mem_of_find?_eq_some stand

theorem roles_by_first_fit (certificate : Identity → Profile) (held : List Identity) (w : World) :
    let l := ofShared certificate held
    (Source.listing l).outcome Search.issuer w = required l.issuer? ∧
    (Source.listing l).outcome Search.signer w = required l.signer? ∧
    (Source.listing l).outcome Search.recipient w = required l.recipient? ∧
    ((∃ a, (Source.listing l).outcome Search.assignment w = .ok a) ↔
      ∃ m ∈ l.members, m.isAuthority = true) ∧
    ((∀ m ∈ l.members, m.isAuthority = false) →
      (Source.listing l).outcome Search.assignment w = .error (.notFound .issuer)) ∧
    ∀ a, (Source.listing l).outcome Search.assignment w = .ok a →
      l.issuer? = some a.issuer ∧ l.signer? = some a.signer ∧ l.recipient? = some a.recipient ∧
      (a.isSingleAuthority = true ↔ ∀ m ∈ l.members,
        m.profile.isFitFor .digitalSignature = false ∧
        m.profile.isFitFor .keyEncipherment = false ∧
        m.profile.isMarkedFor .dataEncipherment = false) := by
  intro l
  simp only [Source.outcome_listing]
  refine ⟨l.outcome_issuer, l.outcome_signer, l.outcome_recipient, exists_outcome_assignment_iff,
    ?_, ?_⟩
  · intro ends
    apply outcome_assignment_of_issuer?_eq_none
    exact List.find?_eq_none.mpr fun m hm => by simp [ends m hm]
  · intro a ha
    obtain ⟨hi, hs, hr⟩ := outcome_assignment_eq_ok_iff.mp ha
    refine ⟨hi, hs, hr, (isSingleAuthority_iff ha).trans ?_⟩
    simp only [fit?, marked?, List.find?_eq_none, Bool.not_eq_true]
    constructor
    · rintro ⟨hs, hk, hd⟩ m hm
      exact ⟨hs m hm, hk m hm, hd m hm⟩
    · intro h
      exact ⟨fun m hm => (h m hm).1, fun m hm => (h m hm).2.1, fun m hm => (h m hm).2.2⟩

end Listing

end TrustRoles
