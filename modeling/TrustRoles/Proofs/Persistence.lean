import TrustRoles.Proofs.Rearrangement

namespace TrustRoles

namespace Listing

variable {l : Listing} {a b : Assignment} {m n : Member} {us : List Usage}

def choice (l : Listing) (us : List Usage) : Option Member :=
  (us.findSome? l.fit?).or l.issuer?

theorem isFitFor_of_fit? {u : Usage} (h : l.fit? u = some m) : m.profile.isFitFor u = true := by
  simpa using List.find?_some h

theorem choice_cons (l : Listing) (u : Usage) (us : List Usage) :
    l.choice (u :: us) = (l.fit? u).or (l.choice us) := by
  rw [choice, choice, List.findSome?_cons]
  cases l.fit? u <;> rfl

theorem choice_of_outcome (h : l.outcome Search.assignment = .ok a) (role : Role) :
    l.choice (usagesFor role) = some (a.get role) :=
  (l.findSome?_fit?_or_issuer? _).trans (head?_qualified_of_outcome h role)

theorem outcome_of_choice (h : ∀ role, l.choice (usagesFor role) = some (a.get role)) :
    l.outcome Search.assignment = .ok a := by
  have signer := (l.findSome?_fit?_or_issuer? _).symm.trans (h .signer)
  have recipient := (l.findSome?_fit?_or_issuer? _).symm.trans (h .recipient)
  exact outcome_assignment_eq_ok_iff.mpr
    ⟨h .issuer, l.signer?_eq_head?.trans signer, l.recipient?_eq_head?.trans recipient⟩

section Leaving

variable {kept : List (Member × Nat)} {p : Member → Bool}

theorem find?_of_sublist {members : List Member} (thinned : kept.Sublist members.zipIdx)
    (found : members.find? p = some m) (stays : (m, members.idxOf m) ∈ kept) :
    (kept.map Prod.fst).find? p = some m := by
  obtain ⟨fits, front, back, split, misfits⟩ := List.find?_eq_some_iff_append.mp found
  have unlisted : m ∉ front := fun listed => by simpa [fits] using misfits m listed
  have position : members.idxOf m = front.length := by
    rw [split, List.idxOf_append, if_neg unlisted, List.idxOf_cons_self, Nat.zero_add]
  rw [position] at stays
  rw [split, List.zipIdx_append, List.zipIdx_cons, Nat.zero_add] at thinned
  obtain ⟨early, late, rfl, before, after⟩ := List.sublist_append_iff.mp thinned
  have passed : (early.map Prod.fst).find? p = none := by
    refine List.find?_eq_none.mpr fun n among => ?_
    obtain ⟨e, mem, rfl⟩ := List.mem_map.mp among
    simpa using misfits e.1 (List.fst_mem_of_mem_zipIdx (before.subset mem))
  have later : (m, front.length) ∈ late :=
    (List.mem_append.mp stays).resolve_left fun mem =>
      unlisted (List.fst_mem_of_mem_zipIdx (before.subset mem))
  rcases List.sublist_cons_iff.mp after with dropped | ⟨rest, rfl, -⟩
  · exact absurd (List.le_snd_of_mem_zipIdx (dropped.subset later)) (Nat.not_succ_le_self _)
  · rw [List.map_append, List.find?_append, passed, Option.none_or]
    exact List.find?_cons_of_pos fits

theorem find?_eq_none_of_sublist {members : List Member} (thinned : kept.Sublist members.zipIdx)
    (missing : members.find? p = none) : (kept.map Prod.fst).find? p = none := by
  refine List.find?_eq_none.mpr fun n among => ?_
  obtain ⟨e, mem, rfl⟩ := List.mem_map.mp among
  exact List.find?_eq_none.mp missing e.1 (List.fst_mem_of_mem_zipIdx (thinned.subset mem))

theorem choice_of_sublist (thinned : kept.Sublist l.members.zipIdx)
    (chosen : l.choice us = some m) (stays : (m, l.members.idxOf m) ∈ kept) :
    (Listing.mk (kept.map Prod.fst)).choice us = some m := by
  induction us with
  | nil => exact find?_of_sublist thinned chosen stays
  | cons u us ih =>
      rw [choice_cons] at chosen ⊢
      cases fit : l.fit? u with
      | none =>
          rw [fit, Option.none_or] at chosen
          rw [fit?, find?_eq_none_of_sublist thinned fit, Option.none_or, ih chosen]
      | some n =>
          rw [fit, Option.some_or] at chosen
          rw [chosen] at fit
          rw [fit?, find?_of_sublist thinned fit stays, Option.some_or]

theorem outcome_of_sublist (h : l.outcome Search.assignment = .ok a)
    (thinned : kept.Sublist l.members.zipIdx)
    (stay : ∀ role, (a.get role, l.members.idxOf (a.get role)) ∈ kept) :
    (Listing.mk (kept.map Prod.fst)).outcome Search.assignment = .ok a :=
  outcome_of_choice fun role => choice_of_sublist thinned (choice_of_outcome h role) (stay role)

-- Where no member is listed twice, entries and members are the same.
theorem exists_entries_of_sublist {members left : List Member} (distinct : members.Nodup)
    (h : left.Sublist members) : ∃ kept : List (Member × Nat), kept.Sublist members.zipIdx ∧
      kept.map Prod.fst = left ∧ ∀ m ∈ left, (m, members.idxOf m) ∈ kept := by
  have entries : left.Sublist (members.zipIdx.map Prod.fst) := by rwa [List.zipIdx_map_fst]
  obtain ⟨kept, thinned, rfl⟩ := List.sublist_map_iff.mp entries
  refine ⟨kept, thinned, rfl, fun m among => ?_⟩
  obtain ⟨⟨n, k⟩, mem, rfl⟩ := List.mem_map.mp among
  have listed := List.mem_zipIdx_iff_getElem?.mp (thinned.subset mem)
  obtain ⟨inside, here⟩ := List.getElem?_eq_some_iff.mp listed
  rwa [← here, distinct.idxOf_getElem k inside, here]

end Leaving

variable {more : List Member}

theorem fit?_append (l : Listing) (more : List Member) (u : Usage) :
    (Listing.mk (l.members ++ more)).fit? u = (l.fit? u).or ((Listing.mk more).fit? u) :=
  List.find?_append

theorem choice_append (chosen : l.choice us = some m)
    (chosen' : (Listing.mk (l.members ++ more)).choice us = some n) :
    n = m ∨ ∃ before u after, us = before ++ u :: after ∧ (∀ v ∈ before ++ [u], l.fit? v = none) ∧
      (Listing.mk more).fit? u = some n := by
  induction us with
  | nil =>
      have same : (l.members ++ more).find? Member.isAuthority = some m := by
        rw [List.find?_append, show l.members.find? Member.isAuthority = some m from chosen]
        rfl
      exact .inl (Option.some.inj (chosen'.symm.trans same))
  | cons u us ih =>
      rw [choice_cons] at chosen chosen'
      rw [fit?_append] at chosen'
      cases fit : l.fit? u with
      | some found =>
          rw [fit] at chosen chosen'
          exact .inl (Option.some.inj (chosen'.symm.trans chosen))
      | none =>
          rw [fit, Option.none_or] at chosen chosen'
          cases fit' : (Listing.mk more).fit? u with
          | some found =>
              rw [fit', Option.some_or] at chosen'
              rw [chosen'] at fit'
              exact .inr ⟨[], u, us, rfl, List.forall_mem_singleton.mpr fit, fit'⟩
          | none =>
              rw [fit', Option.none_or] at chosen'
              rcases ih chosen chosen' with same | ⟨before, v, after, rfl, unfit, joined⟩
              · exact .inl same
              · have unfit' : ∀ w ∈ u :: before ++ [v], l.fit? w = none :=
                  List.forall_mem_cons.mpr ⟨fit, unfit⟩
                exact .inr ⟨u :: before, v, after, rfl, unfit', joined⟩

theorem signer_of_append (ha : l.outcome Search.assignment = .ok a)
    (hb : (Listing.mk (l.members ++ more)).outcome Search.assignment = .ok b) :
    b.signer = a.signer ∨
      l.level .signer = none ∧ b.signer ∈ more ∧ b.signer.isAuthority = false := by
  have joined := choice_append (choice_of_outcome ha .signer) (choice_of_outcome hb .signer)
  refine joined.imp_right fun ⟨before, u, after, usages, unfit, fit⟩ => ?_
  obtain ⟨rfl, rfl, -⟩ : before = [] ∧ u = .digitalSignature ∧ after = [] := by
    simpa [usagesFor, List.singleton_eq_append_iff] using usages
  have last : l.level .signer = none := by
    simpa [level, usagesFor] using unfit
  exact ⟨last, endEntity_of_fit? fit⟩

theorem recipient_of_append (ha : l.outcome Search.assignment = .ok a)
    (hb : (Listing.mk (l.members ++ more)).outcome Search.assignment = .ok b) :
    b.recipient = a.recipient ∨ b.recipient ∈ more ∧
      (b.recipient.profile.isFitFor .keyEncipherment = true ∧
          (l.level .recipient = some .dataEncipherment ∨ l.level .recipient = none) ∨
        b.recipient.profile.isFitFor .dataEncipherment = true ∧ l.level .recipient = none) := by
  have joined := choice_append (choice_of_outcome ha .recipient) (choice_of_outcome hb .recipient)
  refine joined.imp_right fun ⟨before, u, after, usages, unfit, fit⟩ => ?_
  have member := (endEntity_of_fit? fit).1
  have fits : b.recipient.profile.isFitFor u = true := isFitFor_of_fit? fit
  refine ⟨member, ?_⟩
  match before with
  | [] =>
      obtain ⟨rfl, -⟩ := List.cons.inj usages
      have noKey : l.fit? .keyEncipherment = none := unfit _ List.mem_cons_self
      refine .inl ⟨fits, ?_⟩
      cases data : l.fit? .dataEncipherment <;> simp [level, usagesFor, noKey, data]
  | [v] =>
      obtain ⟨rfl, others⟩ := List.cons.inj usages
      obtain ⟨rfl, -⟩ := List.cons.inj others
      refine .inr ⟨fits, ?_⟩
      simpa [level, usagesFor] using unfit
  | _ :: _ :: _ => simp [usagesFor] at usages

theorem persistence {a : Assignment} {w : World}
    (h : (Source.listing l).outcome Search.assignment w = .ok a) (v : World) :
    (∀ kept : List (Member × Nat), kept.Sublist l.members.zipIdx →
      (∀ role, (a.get role, l.members.idxOf (a.get role)) ∈ kept) →
      (Source.listing ⟨kept.map Prod.fst⟩).outcome Search.assignment v = .ok a) ∧
    (l.members.Nodup → ∀ left, left.Sublist l.members → (∀ role, a.get role ∈ left) →
      (Source.listing ⟨left⟩).outcome Search.assignment v = .ok a) ∧
    ∀ more, ∃ b, (Source.listing ⟨l.members ++ more⟩).outcome Search.assignment v = .ok b ∧
      b.issuer = a.issuer ∧
      (b.signer = a.signer ∨
        l.level .signer = none ∧ b.signer ∈ more ∧ b.signer.isAuthority = false) ∧
      (b.recipient = a.recipient ∨ b.recipient ∈ more ∧
        ((∃ m ∈ more, m.profile.isFitFor .keyEncipherment = true) ∧
            (l.level .recipient = some .dataEncipherment ∨ l.level .recipient = none) ∨
          (∃ m ∈ more, m.profile.isFitFor .dataEncipherment = true) ∧
            l.level .recipient = none)) := by
  simp only [Source.outcome_listing] at h ⊢
  refine ⟨fun kept thinned stay => outcome_of_sublist h thinned stay,
    fun distinct left thinned stay => ?_, fun more => ?_⟩
  · obtain ⟨kept, entries, rfl, listed⟩ := exists_entries_of_sublist distinct thinned
    exact outcome_of_sublist h entries fun role => listed _ (stay role)
  · have authority := isAuthority_of_issuer? (outcome_assignment_eq_ok_iff.mp h).1
    have listed := get_mem_of_outcome h .issuer
    obtain ⟨b, hb⟩ := exists_outcome_assignment_iff (l := ⟨l.members ++ more⟩).mpr
      ⟨a.issuer, List.mem_append_left _ listed, authority⟩
    have issuer := choice_append (choice_of_outcome h .issuer) (choice_of_outcome hb .issuer)
    refine ⟨b, hb, ?_, signer_of_append h hb, ?_⟩
    · exact issuer.resolve_right fun ⟨before, u, after, usages, _⟩ => by simp [usagesFor] at usages
    · refine (recipient_of_append h hb).imp_right fun ⟨member, taken⟩ => ⟨member, ?_⟩
      exact taken.imp (fun ⟨fits, level⟩ => ⟨⟨_, member, fits⟩, level⟩)
        fun ⟨fits, level⟩ => ⟨⟨_, member, fits⟩, level⟩

def post (index : Nat) (standing : Standing) (usages : List Usage) : Member :=
  ⟨⟨0, index⟩, ⟨"CN=Root", "CN=Member", "01", standing, some (.ofList usages), none⟩⟩

def office : Listing :=
  ⟨[post 0 .endEntity [.crlSign], post 1 (.authority none) [],
    post 2 .endEntity [.dataEncipherment]]⟩

-- Without the guard all stays as it is; a desk that joins takes over from the clerk, and from the
-- authority as the signer.
theorem persistence_of_office :
    let w : World := ⟨.bare [], []⟩
    let desk := post 3 .endEntity [.digitalSignature, .keyEncipherment]
    ∃ a, (Source.listing office).outcome Search.assignment w = .ok a ∧
      (Source.listing ⟨office.members.tail⟩).outcome Search.assignment w = .ok a ∧
      ∃ b, (Source.listing ⟨office.members ++ [desk]⟩).outcome Search.assignment w = .ok b ∧
        b.issuer = a.issuer ∧ b.signer ≠ a.signer ∧ b.recipient ≠ a.recipient := by
  intro w desk
  have found : (Source.listing office).outcome Search.assignment w =
      .ok ⟨post 1 (.authority none) [], post 2 .endEntity [.dataEncipherment],
        post 1 (.authority none) []⟩ := rfl
  obtain ⟨-, thinned, joined⟩ := persistence found w
  refine ⟨_, found, thinned (by decide) _ (List.tail_sublist _) fun role => ?_, ?_⟩
  · cases role <;> decide
  · obtain ⟨b, hb, issuer, -⟩ := joined [desk]
    have grown : (Source.listing ⟨office.members ++ [desk]⟩).outcome Search.assignment w =
        .ok ⟨desk, desk, post 1 (.authority none) []⟩ := rfl
    obtain rfl := Except.ok.inj (grown.symm.trans hb)
    exact ⟨_, hb, issuer, by decide, by decide⟩

/-- The chosen member may be kept in a later place than the one it was chosen in. -/
theorem not_persistence_of_twice :
    ¬ ∀ (l : Listing) (a : Assignment) (w : World),
      (Source.listing l).outcome Search.assignment w = .ok a →
        ∀ left, left.Sublist l.members → (∀ role, a.get role ∈ left) →
          (Source.listing ⟨left⟩).outcome Search.assignment w = .ok a := by
  intro claimed
  let twice := post 1 (.authority none) []
  let once := post 2 (.authority none) []
  let w : World := ⟨.bare [], []⟩
  have found : (Source.listing ⟨[twice, once, twice]⟩).outcome Search.assignment w =
      .ok ⟨twice, twice, twice⟩ := rfl
  have found' : (Source.listing ⟨[once, twice]⟩).outcome Search.assignment w =
      .ok ⟨once, once, once⟩ := rfl
  have same := claimed _ _ w found [once, twice] (List.sublist_cons_self _ _) fun role => by
    cases role <;> decide
  have moved : once = twice := congrArg Assignment.issuer (Except.ok.inj (found'.symm.trans same))
  exact absurd moved (by decide)

end Listing

end TrustRoles
