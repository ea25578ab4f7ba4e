import TrustRoles.Proofs.Consultation

namespace TrustRoles

variable {α β : Type}

abbrev Exchange := Criterion × Answer

def Event.exchange? : Event → Option Exchange
  | .asked c a => some (c, a)
  | .noted _ => none

namespace Transcript

def exchanges (t : Transcript) : List Exchange :=
  t.filterMap Event.exchange?

@[simp] theorem exchanges_append (t u : Transcript) :
    exchanges (t ++ u) = exchanges t ++ exchanges u :=
  List.filterMap_append

theorem criteria_append (t u : Transcript) : criteria (t ++ u) = criteria t ++ criteria u :=
  List.filterMap_append

@[simp] theorem criteria_snoc_asked (t : Transcript) (c : Criterion) (a : Answer) :
    criteria (t ++ [.asked c a]) = criteria t ++ [c] :=
  criteria_append t [.asked c a]

@[simp] theorem criteria_snoc_noted (t : Transcript) (n : Notice) :
    criteria (t ++ [.noted n]) = criteria t :=
  (criteria_append t [.noted n]).trans (List.append_nil _)

theorem exists_criteria_eq (cs : List Criterion) : ∃ t, criteria t = cs :=
  ⟨cs.map fun c => .asked c (.ok []), by simp [criteria, Event.criterion?, Function.comp_def]⟩

theorem criteria_eq (t : Transcript) : t.criteria = t.exchanges.map Prod.fst := by
  rw [exchanges, List.map_filterMap, criteria]
  congr 1
  funext e
  cases e <;> rfl

end Transcript

namespace Consultation

inductive Course : Consultation α → Transcript → α → Prop
  | done (a : α) : Course (.done a) [] a
  | ask {c : Criterion} {next : Answer → Consultation α} {t : Transcript} {a : α} (answer : Answer)
      (rest : Course (next answer) t a) : Course (.call (.ask c) next) (.asked c answer :: t) a
  | note {n : Notice} {next : Unit → Consultation α} {t : Transcript} {a : α}
      (rest : Course (next ()) t a) : Course (.call (.note n) next) (.noted n :: t) a

theorem course_consult (o : Oracle) (i : Consultation α) (t : Transcript) :
    ∃ u, (o.consult i t).2 = t ++ u ∧ Course i u (o.consult i t).1 := by
  induction i generalizing t with
  | done a => exact ⟨[], (List.append_nil t).symm, .done a⟩
  | call c next ih =>
      cases c with
      | ask c =>
          obtain ⟨u, later, course⟩ := ih (o t.criteria c) (t ++ [.asked c (o t.criteria c)])
          exact ⟨.asked c (o t.criteria c) :: u, later.trans (List.append_assoc ..), .ask _ course⟩
      | note n =>
          obtain ⟨u, later, course⟩ := ih () (t ++ [.noted n])
          exact ⟨.noted n :: u, later.trans (List.append_assoc ..), .note course⟩

theorem Course.of_bind {i : Consultation α} {f : α → Consultation β} {t : Transcript} {b : β}
    (h : Course (i.bind f) t b) :
    ∃ a u v, t = u ++ v ∧ Course i u a ∧ Course (f a) v b := by
  induction i generalizing t with
  | done a => exact ⟨a, [], t, rfl, .done a, h⟩
  | call c next ih =>
      cases c with
      | ask c =>
          cases h with
          | @ask _ _ t _ answer rest =>
              obtain ⟨a, u, v, rfl, first, second⟩ := ih answer rest
              exact ⟨a, .asked c answer :: u, v, rfl, .ask answer first, second⟩
      | note n =>
          cases h with
          | note rest =>
              obtain ⟨a, u, v, rfl, first, second⟩ := ih () rest
              exact ⟨a, .noted n :: u, v, rfl, .note first, second⟩

end Consultation

namespace Search

def Course (s : Search α) : Transcript → Except RoleFailure α → Prop :=
  Consultation.Course s.run

theorem Course.of_bind {s : Search α} {f : α → Search β} {t : Transcript}
    {r : Except RoleFailure β} (h : Course (s >>= f) t r) :
    (∃ e, Course s t (.error e) ∧ r = .error e) ∨
    ∃ a u v, t = u ++ v ∧ Course s u (.ok a) ∧ Course (f a) v r := by
  obtain ⟨first, u, v, rfl, before, after⟩ := Consultation.Course.of_bind h
  cases first with
  | error e =>
      cases after
      exact .inl ⟨e, (List.append_nil u).symm ▸ before, rfl⟩
  | ok a => exact .inr ⟨a, u, v, rfl, before, after⟩

variable {least least' most most' : Nat} {s : Search α}

def Answered (es : List Exchange) : Prop :=
  ∀ e ∈ es, ∃ members, e.2 = .ok members

theorem answered_nil : Answered [] :=
  fun _ h => by cases h

theorem Answered.append {es fs : List Exchange} (he : Answered es) (hf : Answered fs) :
    Answered (es ++ fs) :=
  fun e h => (List.mem_append.mp h).elim (he e) (hf e)

/-- The ends of a search that asks from `least` to `most` questions to find something, and no more
than `most` to fail. Whatever fails it is said last. -/
inductive Ending (least most : Nat) (P : List Exchange → α → Prop) :
    List Exchange → Except RoleFailure α → Prop
  | found {es : List Exchange} {a : α} (enough : least ≤ es.length) (bounded : es.length ≤ most)
      (answered : Answered es) (holds : P es a) : Ending least most P es (.ok a)
  | failed {es : List Exchange} {c : Criterion} {f : QueryFailure} (bounded : es.length < most)
      (answered : Answered es) : Ending least most P (es ++ [(c, .error f)]) (.error (.query f))
  | missing {es : List Exchange} (bounded : es.length < most) (answered : Answered es) :
      Ending least most P (es ++ [(.issuing, .ok [])]) (.error (.notFound .issuer))

def Ends (least most : Nat) (P : List Exchange → α → Prop) (s : Search α) : Prop :=
  ∀ t r, Course s t r → Ending least most P t.exchanges r

theorem Ends.mono {P Q : List Exchange → α → Prop} (h : Ends least most P s)
    (fewer : least' ≤ least) (more : most ≤ most') (weaker : ∀ es a, P es a → Q es a) :
    Ends least' most' Q s := by
  intro t r course
  have ending := h t r course
  generalize t.exchanges = es at ending
  cases ending with
  | found enough bounded answered holds =>
      exact .found (Nat.le_trans fewer enough) (Nat.le_trans bounded more) answered
        (weaker _ _ holds)
  | failed bounded answered => exact .failed (Nat.lt_of_lt_of_le bounded more) answered
  | missing bounded answered => exact .missing (Nat.lt_of_lt_of_le bounded more) answered

theorem Ends.bind {f : α → Search β} {P : List Exchange → α → Prop}
    {Q : α → List Exchange → β → Prop} {R : List Exchange → β → Prop} (hs : Ends least most P s)
    (hf : ∀ a, Ends least' most' (Q a) (f a))
    (both : ∀ es a fs b, P es a → Q a fs b → R (es ++ fs) b) :
    Ends (least + least') (most + most') R (s >>= f) := by
  intro t r course
  rcases course.of_bind with ⟨e, first, rfl⟩ | ⟨a, u, v, rfl, first, second⟩
  · have ending := hs t _ first
    generalize t.exchanges = es at ending
    cases ending with
    | failed bounded answered => exact .failed (by omega) answered
    | missing bounded answered => exact .missing (by omega) answered
  · have before := hs u _ first
    have after := hf a v r second
    rw [Transcript.exchanges_append]
    generalize u.exchanges = es at before
    generalize v.exchanges = fs at after
    cases before with
    | found enough bounded answered holds =>
        cases after with
        | found enough' bounded' answered' holds' =>
            refine .found ?_ ?_ (answered.append answered') (both _ _ _ _ holds holds')
            · rw [List.length_append]
              omega
            · rw [List.length_append]
              omega
        | failed bounded' answered' =>
            rw [← List.append_assoc]
            refine .failed ?_ (answered.append answered')
            rw [List.length_append]
            omega
        | missing bounded' answered' =>
            rw [← List.append_assoc]
            refine .missing ?_ (answered.append answered')
            rw [List.length_append]
            omega

theorem ends_pure (a : α) : Ends 0 0 (fun es b => es = [] ∧ b = a) (pure a) := by
  intro t r course
  cases course
  exact .found (Nat.le_refl 0) (Nat.le_refl 0) (fun _ h => by cases h) ⟨rfl, rfl⟩

theorem Ends.after_note {P : List Exchange → α → Prop} (h : Ends least most P s) (n : Notice) :
    Ends least most P (note n >>= fun _ => s) := by
  intro t r course
  change Consultation.Course (.call (.note n) fun _ => s.run) t r at course
  cases course with
  | @note _ _ t _ rest => exact h t r rest

theorem ends_ask (c : Criterion) : Ends 1 1 (fun es ms => es = [(c, .ok ms)]) (ask c) := by
  intro t r course
  cases course with
  | ask answer rest =>
      cases answer with
      | error f =>
          cases rest
          exact .failed Nat.zero_lt_one answered_nil
      | ok ms =>
          cases rest
          refine .found (Nat.le_refl 1) (Nat.le_refl 1) (fun e h => ?_) rfl
          exact ⟨ms, congrArg Prod.snd (List.mem_singleton.mp h)⟩

theorem ends_first? (c : Criterion) :
    Ends 1 1 (fun es found => ∃ ms, es = [(c, .ok ms)] ∧ found = ms.head?) (first? c) := by
  change Ends (1 + 0) (1 + 0) _ _
  unfold first?
  refine (ends_ask c).bind (Q := fun ms es found => es = [] ∧ found = ms.head?) (fun ms => ?_) ?_
  · cases ms with
    | nil => exact (ends_pure none).after_note _
    | cons m rest => exact (ends_pure (some m)).after_note _
  · rintro _ ms _ _ rfl ⟨rfl, rfl⟩
    exact ⟨ms, rfl, rfl⟩

def Received (es : List Exchange) (cs : List Criterion) (m : Member) : Prop :=
  ∃ c ∈ cs, ∃ rest, (c, .ok (m :: rest)) ∈ es

theorem Received.mono {es fs : List Exchange} {cs ds : List Criterion} {m : Member}
    (h : Received es cs m) (recorded : es ⊆ fs) (among : cs ⊆ ds) : Received fs ds m := by
  obtain ⟨c, hc, rest, answered⟩ := h
  exact ⟨c, among hc, rest, recorded answered⟩

theorem ends_issuer : Ends 1 1 (fun es m => Received es [.issuing] m) issuer := by
  refine Ends.after_note (fun t r course => ?_) _
  rcases course.of_bind with ⟨e, first, rfl⟩ | ⟨found, u, v, rfl, first, second⟩
  · have ending := ends_first? .issuing t _ first
    generalize t.exchanges = es at ending
    cases ending with
    | failed bounded answered => exact .failed bounded answered
    | missing bounded answered => exact .missing bounded answered
  · have ending := ends_first? .issuing u _ first
    rw [Transcript.exchanges_append]
    generalize u.exchanges = es at ending
    cases ending with
    | found enough bounded answered holds =>
        obtain ⟨ms, rfl, rfl⟩ := holds
        cases ms with
        | nil =>
            cases second
            exact .missing Nat.zero_lt_one answered_nil
        | cons m rest =>
            cases second
            exact .found enough bounded answered
              ⟨.issuing, List.mem_singleton_self _, rest, List.mem_singleton_self _⟩

theorem ends_endEntityOrIssuer (us : List Usage) :
    Ends 1 (us.length + 1) (fun es m => Received es (us.map .endEntityFor ++ [.issuing]) m)
      (endEntityOrIssuer us) := by
  induction us with
  | nil => exact ends_issuer
  | cons u us ih =>
      rw [List.length_cons, Nat.add_comm (us.length + 1)]
      change Ends (1 + 0) _ _ _
      unfold endEntityOrIssuer endEntity?
      refine ((ends_first? (.endEntityFor u)).after_note _).bind (Q := fun found es m =>
        found = some m ∨ Received es (us.map .endEntityFor ++ [.issuing]) m) (fun found => ?_) ?_
      · cases found with
        | some m =>
            exact (ends_pure m).mono (Nat.le_refl 0) (Nat.zero_le _) fun es b h =>
              .inl (congrArg some h.2.symm)
        | none => exact ih.mono (Nat.zero_le 1) (Nat.le_refl _) fun es m => .inr
      · rintro _ _ fs m ⟨ms, rfl, rfl⟩ (first | later)
        · obtain ⟨rest, rfl⟩ := List.head?_eq_some_iff.mp first
          exact ⟨_, List.mem_cons_self .., rest, List.mem_cons_self ..⟩
        · exact later.mono (List.subset_cons_self ..) (List.subset_cons_self ..)

theorem ends_noteMembers (k : Nat) (ms : List Member) :
    Ends 0 0 (fun es _ => es = []) (noteMembers k ms) := by
  induction ms generalizing k with
  | nil => exact (ends_pure ()).mono (Nat.le_refl 0) (Nat.le_refl 0) fun es _ h => h.1
  | cons m ms ih => exact (ih (k + 1)).after_note _

theorem ends_inventory : Ends 1 1 (fun _ _ => True) inventory :=
  (ends_ask .any).bind (fun members => (ends_noteMembers 0 members).after_note _)
    fun _ _ _ _ _ _ => trivial

theorem ends_settle {P : List Exchange → Member → Prop} {s : Search Member} (role : Role)
    (h : Ends least most P s) : Ends least most P (settle role s) := by
  refine Ends.after_note (h.bind (fun m => (ends_pure m).after_note _) ?_) _
  rintro es m _ _ holds ⟨rfl, rfl⟩
  exact (List.append_nil es).symm ▸ holds

def criteriaFor : Role → List Criterion
  | .signer => [.endEntityFor .digitalSignature, .issuing]
  | .recipient => [.endEntityFor .keyEncipherment, .endEntityFor .dataEncipherment, .issuing]
  | .issuer => [.issuing]

theorem ends_signer : Ends 1 2 (fun es m => Received es (criteriaFor .signer) m) signer :=
  ends_endEntityOrIssuer [.digitalSignature]

theorem ends_recipient : Ends 1 3 (fun es m => Received es (criteriaFor .recipient) m) recipient :=
  ends_endEntityOrIssuer [.keyEncipherment, .dataEncipherment]

theorem ends_assignment :
    Ends 4 7 (fun es a => ∀ role, Received es (criteriaFor role) (a.get role)) assignment := by
  have issuing (r s : Member) := (ends_settle .issuer ends_issuer).bind
    (R := fun es a => a.recipient = r ∧ a.signer = s ∧ Received es (criteriaFor .issuer) a.issuer)
    (fun i => ends_pure (Assignment.mk s r i)) (by
      rintro es i _ _ received ⟨rfl, rfl⟩
      exact ⟨rfl, rfl, (List.append_nil es).symm ▸ received⟩)
  have signing (r : Member) := (ends_settle .signer ends_signer).bind
    (R := fun es a => a.recipient = r ∧ Received es (criteriaFor .signer) a.signer ∧
      Received es (criteriaFor .issuer) a.issuer) (issuing r) (by
      rintro es s fs a received ⟨same, rfl, issuer⟩
      exact ⟨same, received.mono (List.subset_append_left ..) (List.Subset.refl _),
        issuer.mono (List.subset_append_right ..) (List.Subset.refl _)⟩)
  have receiving := (ends_settle .recipient ends_recipient).bind
    (R := fun es (a : Assignment) => ∀ role, Received es (criteriaFor role) (a.get role)) signing
    (by
      rintro es r fs a received ⟨rfl, signer, issuer⟩ role
      cases role with
      | recipient => exact received.mono (List.subset_append_left ..) (List.Subset.refl _)
      | signer => exact signer.mono (List.subset_append_right ..) (List.Subset.refl _)
      | issuer => exact issuer.mono (List.subset_append_right ..) (List.Subset.refl _))
  exact ends_inventory.bind (fun _ => receiving) fun es _ fs a _ all role =>
    (all role).mono (List.subset_append_right ..) (List.Subset.refl _)

namespace Ending

variable {P : List Exchange → α → Prop} {es : List Exchange} {r : Except RoleFailure α}

theorem length_le (h : Ending least most P es r) : es.length ≤ most := by
  cases h with
  | found enough bounded answered holds => exact bounded
  | failed bounded answered => exact Nat.le_trans (Nat.le_of_eq List.length_append) bounded
  | missing bounded answered => exact Nat.le_trans (Nat.le_of_eq List.length_append) bounded

theorem eq_last_of_not_mem {es early late : List Exchange} {d e : Exchange}
    (split : es ++ [d] = early ++ e :: late) (new : e ∉ es) : late = [] ∧ d = e := by
  rcases late.eq_nil_or_concat with rfl | ⟨init, last, rfl⟩
  · obtain ⟨-, same⟩ := List.append_inj' split rfl
    exact ⟨rfl, (List.cons.inj same).1⟩
  · have earlier : es ++ [d] = (early ++ e :: init) ++ [last] := by simpa using split
    obtain ⟨rfl, -⟩ := List.append_inj' earlier rfl
    exact absurd (List.mem_append_right _ (List.mem_cons_self ..)) new

theorem of_failure (h : Ending least most P es r) {early late : List Exchange} {c : Criterion}
    {f : QueryFailure} (split : es = early ++ (c, .error f) :: late) :
    late = [] ∧ r = .error (.query f) := by
  have unanswered : ∀ fs : List Exchange, Answered fs → (c, .error f) ∉ fs := by
    intro fs answered mem
    obtain ⟨ms, same⟩ := answered _ mem
    cases same
  cases h with
  | found enough bounded answered holds =>
      rw [split] at answered
      exact absurd (List.mem_append_right _ (List.mem_cons_self ..)) (unanswered _ answered)
  | failed bounded answered =>
      obtain ⟨last, same⟩ := eq_last_of_not_mem split (unanswered _ answered)
      cases same
      exact ⟨last, rfl⟩
  | missing bounded answered =>
      obtain ⟨-, same⟩ := eq_last_of_not_mem split (unanswered _ answered)
      cases same

theorem of_query {f : QueryFailure} (h : Ending least most P es r) (hr : r = .error (.query f)) :
    ∃ early c, es = early ++ [(c, .error f)] := by
  subst hr
  cases h with
  | failed bounded answered => exact ⟨_, _, rfl⟩

theorem of_notFound {role : Role} (h : Ending least most P es r)
    (hr : r = .error (.notFound role)) :
    role = .issuer ∧ ∃ early, es = early ++ [(.issuing, .ok [])] := by
  subst hr
  cases h with
  | missing bounded answered => exact ⟨rfl, _, rfl⟩

theorem of_ok {a : α} (h : Ending least most P es r) (hr : r = .ok a) :
    least ≤ es.length ∧ Answered es ∧ P es a := by
  subst hr
  cases h with
  | found enough bounded answered holds => exact ⟨enough, answered, holds⟩

end Ending

theorem ending_assignment (o : Oracle) :
    Ending 4 7 (fun es a => ∀ role, Received es (criteriaFor role) (a.get role))
      (o.consult assignment.run []).2.exchanges (o.consult assignment.run []).1 := by
  obtain ⟨u, record, course⟩ := Consultation.course_consult o assignment.run []
  rw [record]
  exact ends_assignment u _ course

end Search

namespace Scripted

theorem run_eq_consult (s : Scripted) (i : Consultation α) (t : Transcript) :
    run i { s with asked := t.criteria } =
      ((s.present.consult i t).1, { s with asked := (s.present.consult i t).2.criteria }) := by
  induction i generalizing t with
  | done a => rfl
  | call c next ih =>
      cases c with
      | ask c =>
          have later := ih (s.present t.criteria c) (t ++ [.asked c (s.present t.criteria c)])
          rw [Transcript.criteria_snoc_asked] at later
          exact later
      | note n =>
          have later := ih () (t ++ [.noted n])
          rw [Transcript.criteria_snoc_noted] at later
          exact later

theorem run_consult (s : Scripted) (i : Consultation α) (t : Transcript) (w : World) :
    (World.run ((Source.scripted { s with asked := t.criteria }).consult i) w).1 =
      ((s.present.consult i t).1,
        .scripted { s with asked := (s.present.consult i t).2.criteria }) := by
  have ran := carryOut_scripted { s with asked := t.criteria } i w
  rw [s.run_eq_consult i t] at ran
  exact ran

theorem consult_scripted (o : Oracle) (f : QueryFailure) (i : Consultation α) (w : World) :
    (World.run ((Source.scripted ⟨o, none, f, []⟩).consult i) w).1 =
      ((o.consult i []).1,
        .scripted ⟨o, none, f, (o.consult i []).2.exchanges.map Prod.fst⟩) := by
  rw [← Transcript.criteria_eq]
  exact run_consult ⟨o, none, f, []⟩ i [] w

end Scripted

theorem Oracle.record_of_assignment (o : Oracle) (f : QueryFailure) (w : World) :
    let record := (o.consult Search.assignment.run []).2.exchanges
    let result := (o.consult Search.assignment.run []).1
    (World.run ((Source.scripted ⟨o, none, f, []⟩).consult Search.assignment.run) w).1 =
        (result, .scripted ⟨o, none, f, record.map Prod.fst⟩) ∧
    record.length ≤ 7 ∧
    (∀ early c f late, record = early ++ (c, .error f) :: late →
      late = [] ∧ result = .error (.query f)) ∧
    (∀ f, result = .error (.query f) → ∃ early c, record = early ++ [(c, .error f)]) ∧
    (∀ a, result = .ok a → 4 ≤ record.length ∧
      (∀ e ∈ record, ∃ members, e.2 = .ok members) ∧
      ∀ role, ∃ c ∈ Search.criteriaFor role, ∃ rest, (c, .ok (a.get role :: rest)) ∈ record) ∧
    ∀ role, result = .error (.notFound role) →
      role = .issuer ∧ ∃ early, record = early ++ [(.issuing, .ok [])] := by
  intro record result
  have ending := Search.ending_assignment o
  refine ⟨Scripted.consult_scripted o f _ w, ending.length_le, ?_, ?_, ?_, ?_⟩
  · intro early c g late split
    exact ending.of_failure split
  · intro g failed
    exact ending.of_query failed
  · intro a found
    exact ending.of_ok found
  · intro role missing
    exact ending.of_notFound missing

end TrustRoles
