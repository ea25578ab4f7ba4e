import TrustRoles.Proofs.Choice

namespace TrustRoles

variable {α β : Type}

namespace Listing

def asked (l : Listing) (s : Search α) : List Criterion :=
  (l.oracle.consult s.run []).2.criteria

theorem criteria_consult (l : Listing) (i : Consultation α) (t : Transcript) :
    (l.oracle.consult i t).2.criteria = t.criteria ++ (l.oracle.consult i []).2.criteria := by
  induction i generalizing t with
  | done a => exact (List.append_nil _).symm
  | call c next ih =>
      cases c with
      | ask c =>
          have later := ih (.ok (l.select c)) (t ++ [.asked c (.ok (l.select c))])
          have first := ih (.ok (l.select c)) [.asked c (.ok (l.select c))]
          refine later.trans ?_
          rw [show (l.oracle.consult (.call (.ask c) next) []).2.criteria = _ from first]
          simp [Transcript.criteria]
      | note n =>
          have later := ih () (t ++ [.noted n])
          have first := ih () [.noted n]
          refine later.trans ?_
          rw [show (l.oracle.consult (.call (.note n) next) []).2.criteria = _ from first]
          simp [Transcript.criteria]

def askedAfter (l : Listing) (f : α → Search β) : Except RoleFailure α → List Criterion
  | .ok a => l.asked (f a)
  | .error _ => []

theorem asked_bind (l : Listing) (s : Search α) (f : α → Search β) :
    l.asked (s >>= f) = l.asked s ++ l.askedAfter f (l.outcome s) := by
  have split : l.asked (s >>= f) = (l.oracle.consult (ExceptT.bindCont f
      (l.oracle.consult s.run []).1) (l.oracle.consult s.run []).2).2.criteria :=
    congrArg (fun r => r.2.criteria) (l.oracle.consult_bind s.run (ExceptT.bindCont f) [])
  rw [split, criteria_consult, asked, outcome]
  cases (l.oracle.consult s.run []).1 with
  | ok a => rfl
  | error e => rfl

end Listing

namespace Search

inductive Agree (R : α → β → Prop) : Except RoleFailure α → Except RoleFailure β → Prop
  | found {a : α} {b : β} (related : R a b) : Agree R (.ok a) (.ok b)
  | failed (e : RoleFailure) : Agree R (.error e) (.error e)

structure Alike (l r : Listing) (R : α → β → Prop) (s : Search α) (t : Search β) : Prop where
  asked : l.asked s = r.asked t
  agree : Agree R (l.outcome s) (r.outcome t)

variable {l r : Listing}

theorem alike_pure {R : α → β → Prop} {a : α} {b : β} (h : R a b) :
    Alike l r R (pure a) (pure b) :=
  ⟨rfl, .found h⟩

theorem alike_throw (R : α → β → Prop) (e : RoleFailure) : Alike l r R (throw e) (throw e) :=
  ⟨rfl, .failed e⟩

theorem Alike.bind {α' β' : Type} {R : α → β → Prop} {Q : α' → β' → Prop} {s : Search α}
    {t : Search β} {f : α → Search α'} {g : β → Search β'} (h : Alike l r R s t)
    (next : ∀ a b, R a b → Alike l r Q (f a) (g b)) : Alike l r Q (s >>= f) (t >>= g) := by
  obtain ⟨asked, agree⟩ := h
  generalize hs : l.outcome s = x, ht : r.outcome t = y at agree
  cases agree with
  | found related =>
      obtain ⟨later, final⟩ := next _ _ related
      constructor
      · rw [Listing.asked_bind, Listing.asked_bind, hs, ht, asked]
        exact congrArg _ later
      · rw [Listing.outcome_bind, Listing.outcome_bind, hs, ht]
        exact final
  | failed e =>
      constructor
      · rw [Listing.asked_bind, Listing.asked_bind, hs, ht, asked]
        rfl
      · rw [Listing.outcome_bind, Listing.outcome_bind, hs, ht]
        exact .failed e

theorem Alike.after_note {R : α → β → Prop} {s : Search α} {t : Search β} (h : Alike l r R s t)
    (n m : Notice) : Alike l r R (note n >>= fun _ => s) (note m >>= fun _ => t) := by
  have noted : Alike l r (fun _ _ => True) (note n) (note m) := ⟨rfl, .found trivial⟩
  exact noted.bind fun _ _ _ => h

theorem alike_noteMembers (l r : Listing) (k : Nat) {ms ns : List Member}
    (same : ms.length = ns.length) :
    Alike l r (fun _ _ => True) (noteMembers k ms) (noteMembers k ns) := by
  induction ms generalizing k ns with
  | nil =>
      obtain rfl := List.length_eq_zero_iff.mp same.symm
      exact alike_pure trivial
  | cons m ms ih =>
      cases ns with
      | nil => cases same
      | cons n ns => exact (ih (k + 1) (Nat.succ.inj same)).after_note _ _

theorem alike_settle (role : Role) {s : Search Member} (hs : Alike l r (fun _ _ => True) s s) :
    Alike l r (fun _ _ => True) (settle role s) (settle role s) :=
  (hs.bind fun _ _ _ => (alike_pure trivial).after_note _ _).after_note _ _

def BothFound (a b : Option Member) : Prop :=
  a.isSome = b.isSome

section Rearranged

variable (h : l.members.Perm r.members)
include h

theorem alike_ask (c : Criterion) : Alike l r List.Perm (ask c) (ask c) :=
  ⟨rfl, .found (h.filter _)⟩

theorem alike_first? (c : Criterion) :
    Alike l r BothFound (first? c) (first? c) := by
  refine (alike_ask h c).bind fun ms ns same => ?_
  cases ms with
  | nil =>
      obtain rfl := same.symm.eq_nil
      have missing : BothFound none none := rfl
      exact (alike_pure missing).after_note _ _
  | cons m ms =>
      cases ns with
      | nil => cases same.eq_nil
      | cons n ns =>
          have found : BothFound (some m) (some n) := rfl
          exact (alike_pure found).after_note _ _

theorem alike_issuer : Alike l r (fun _ _ => True) issuer issuer := by
  refine ((alike_first? h .issuing).bind fun a b same => ?_).after_note _ _
  cases a with
  | none =>
      cases b with
      | none => exact alike_throw _ _
      | some n => cases same
  | some m =>
      cases b with
      | none => cases same
      | some n => exact alike_pure trivial

theorem alike_endEntityOrIssuer (us : List Usage) :
    Alike l r (fun _ _ => True) (endEntityOrIssuer us) (endEntityOrIssuer us) := by
  induction us with
  | nil => exact alike_issuer h
  | cons u us ih =>
      refine ((alike_first? h (.endEntityFor u)).after_note _ _).bind fun a b same => ?_
      cases a with
      | none =>
          cases b with
          | none => exact ih
          | some n => cases same
      | some m =>
          cases b with
          | none => cases same
          | some n => exact alike_pure trivial

theorem alike_inventory : Alike l r (fun _ _ => True) inventory inventory :=
  (alike_ask h .any).bind fun _ _ same => (alike_noteMembers l r 0 same.length_eq).after_note _ _

theorem alike_assignment : Alike l r (fun _ _ => True) assignment assignment :=
  (alike_inventory h).bind fun _ _ _ =>
    (alike_settle .recipient (alike_endEntityOrIssuer h _)).bind fun _ _ _ =>
      (alike_settle .signer (alike_endEntityOrIssuer h _)).bind fun _ _ _ =>
        (alike_settle .issuer (alike_issuer h)).bind fun _ _ _ => alike_pure trivial

end Rearranged

end Search

namespace Listing

def usagesFor : Role → List Usage
  | .signer => [.digitalSignature]
  | .recipient => [.keyEncipherment, .dataEncipherment]
  | .issuer => []

def level (l : Listing) (role : Role) : Option Usage :=
  (usagesFor role).find? fun u => (l.fit? u).isSome

def qualified (l : Listing) : Option Usage → List Member
  | some u => l.members.filter fun m => m.profile.isFitFor u
  | none => l.members.filter Member.isAuthority

theorem findSome?_fit?_or_issuer? (l : Listing) (us : List Usage) :
    (us.findSome? l.fit?).or l.issuer? =
      (l.qualified (us.find? fun u => (l.fit? u).isSome)).head? := by
  induction us with
  | nil => exact List.head?_filter.symm
  | cons u us ih =>
      rw [List.findSome?_cons, List.find?_cons]
      cases fit : l.fit? u with
      | none => exact ih
      | some m => exact fit.symm.trans List.head?_filter.symm

theorem required_injective {a b : Option Member} (h : required a = required b) : a = b := by
  cases a with
  | none =>
      cases b with
      | none => rfl
      | some n => cases h
  | some m =>
      cases b with
      | none => cases h
      | some n => exact congrArg some (Except.ok.inj h)

theorem recipient?_eq_head? (l : Listing) :
    l.recipient? = (l.qualified (l.level .recipient)).head? := by
  rw [level, ← findSome?_fit?_or_issuer?]
  exact required_injective (l.outcome_recipient.symm.trans (l.outcome_endEntityOrIssuer _))

theorem signer?_eq_head? (l : Listing) : l.signer? = (l.qualified (l.level .signer)).head? := by
  rw [level, ← findSome?_fit?_or_issuer?]
  exact required_injective (l.outcome_signer.symm.trans (l.outcome_endEntityOrIssuer _))

theorem head?_qualified_of_outcome {l : Listing} {a : Assignment}
    (h : l.outcome Search.assignment = .ok a) (role : Role) :
    (l.qualified (l.level role)).head? = some (a.get role) := by
  obtain ⟨issuer, signer, recipient⟩ := outcome_assignment_eq_ok_iff.mp h
  cases role with
  | issuer => exact List.head?_filter.trans issuer
  | signer => exact l.signer?_eq_head?.symm.trans signer
  | recipient => exact l.recipient?_eq_head?.symm.trans recipient

section Rearranged

variable {l r : Listing} (h : l.members.Perm r.members)
include h

theorem isSome_find?_of_perm (p : Member → Bool) :
    (l.members.find? p).isSome = (r.members.find? p).isSome := by
  rw [Bool.eq_iff_iff, List.find?_isSome, List.find?_isSome]
  exact exists_congr fun m => and_congr_left fun _ => h.mem_iff

theorem level_of_perm (role : Role) : l.level role = r.level role := by
  unfold level
  congr 1
  funext u
  exact isSome_find?_of_perm h _

theorem qualified_of_perm (level : Option Usage) :
    (l.qualified level).Perm (r.qualified level) := by
  cases level with
  | none => exact h.filter _
  | some u => exact h.filter _

theorem exists_outcome_of_perm :
    (∃ a, l.outcome Search.assignment = .ok a) ↔ ∃ b, r.outcome Search.assignment = .ok b := by
  rw [exists_outcome_assignment_iff, exists_outcome_assignment_iff]
  exact exists_congr fun m => and_congr_left fun _ => h.mem_iff

end Rearranged

theorem get_identity_of_perm {l r : Listing} (h : l.members.Perm r.members) {a b : Assignment}
    (ha : l.outcome Search.assignment = .ok a) (hb : r.outcome Search.assignment = .ok b)
    {role : Role} (one : ∀ m ∈ l.qualified (l.level role), ∀ n ∈ l.qualified (l.level role),
      m.identity = n.identity) : (a.get role).identity = (b.get role).identity := by
  have left := List.mem_of_head? (head?_qualified_of_outcome ha role)
  have right := List.mem_of_head? (head?_qualified_of_outcome hb role)
  rw [← level_of_perm h] at right
  exact one _ left _ ((qualified_of_perm h _).mem_iff.mpr right)

theorem perm_ofShared (certificate : Identity → Profile) {held other : List Identity}
    (h : held.Perm other) :
    (ofShared certificate held).members.Perm (ofShared certificate other).members :=
  h.map _

theorem isSingleAuthority_of_perm {certificate : Identity → Profile} {held other : List Identity}
    (h : held.Perm other) {a b : Assignment}
    (ha : (ofShared certificate held).outcome Search.assignment = .ok a)
    (hb : (ofShared certificate other).outcome Search.assignment = .ok b) :
    a.isSingleAuthority = b.isSingleAuthority := by
  have same (p : Member → Bool) : (ofShared certificate held).members.find? p = none ↔
      (ofShared certificate other).members.find? p = none := by
    rw [← Option.isNone_iff_eq_none, ← Option.isNone_iff_eq_none, ← Option.not_isSome,
      ← Option.not_isSome, isSome_find?_of_perm (perm_ofShared certificate h)]
  rw [Bool.eq_iff_iff, isSingleAuthority_iff ha, isSingleAuthority_iff hb]
  exact and_congr (same _) (and_congr (same _) (same _))

theorem rearrangement (certificate : Identity → Profile) (held other : List Identity)
    (h : held.Perm other) (w v : World) :
    let l := ofShared certificate held
    let r := ofShared certificate other
    l.asked Search.assignment = r.asked Search.assignment ∧
    ((∃ a, (Source.listing l).outcome Search.assignment w = .ok a) ↔
      ∃ b, (Source.listing r).outcome Search.assignment v = .ok b) ∧
    ∀ a b, (Source.listing l).outcome Search.assignment w = .ok a →
      (Source.listing r).outcome Search.assignment v = .ok b →
      a.isSingleAuthority = b.isSingleAuthority ∧
      ∀ role, l.level role = r.level role ∧
        (l.qualified (l.level role)).head? = some (a.get role) ∧
        (r.qualified (r.level role)).head? = some (b.get role) ∧
        ((∀ m ∈ l.qualified (l.level role), ∀ n ∈ l.qualified (l.level role),
            m.identity = n.identity) →
          (a.get role).identity = (b.get role).identity) := by
  intro l r
  have members : l.members.Perm r.members := perm_ofShared certificate h
  simp only [Source.outcome_listing]
  refine ⟨(Search.alike_assignment members).asked, exists_outcome_of_perm members, ?_⟩
  intro a b ha hb
  refine ⟨isSingleAuthority_of_perm h ha hb, fun role => ⟨level_of_perm members role, ?_, ?_, ?_⟩⟩
  · exact head?_qualified_of_outcome ha role
  · exact head?_qualified_of_outcome hb role
  · exact get_identity_of_perm members ha hb

def desk (i : Identity) : Profile :=
  match i.index with
  | 0 => ⟨"CN=Root", "CN=Root", "01", .authority none, none, none⟩
  | 1 => ⟨"CN=Root", "CN=Desk", "02", .endEntity,
      some (.ofList [.digitalSignature, .keyEncipherment]), none⟩
  | _ => ⟨"CN=Root", "CN=Clerk", "03", .endEntity, some (.only .digitalSignature), none⟩

-- Desk and clerk both qualify to sign, but only the desk to receive.
theorem rearrangement_of_desk :
    let held : List Identity := [⟨0, 0⟩, ⟨0, 1⟩, ⟨0, 2⟩]
    let other : List Identity := [⟨0, 2⟩, ⟨0, 0⟩, ⟨0, 1⟩]
    held.Perm other ∧
      (ofShared desk held).asked Search.assignment = (ofShared desk other).asked Search.assignment ∧
      ∃ a b, (ofShared desk held).outcome Search.assignment = .ok a ∧
        (ofShared desk other).outcome Search.assignment = .ok b ∧
        a.signer.identity ≠ b.signer.identity ∧ a.recipient.identity = b.recipient.identity := by
  intro held other
  have moved : held.Perm other := by decide
  let w : World := ⟨.bare [], []⟩
  obtain ⟨asked, -, roles⟩ := rearrangement desk held other moved w w
  refine ⟨moved, asked, _, _, rfl, rfl, by decide, ?_⟩
  exact ((roles _ _ rfl rfl).2 .recipient).2.2.2 (by decide)

end Listing

end TrustRoles
