import TrustRoles.Proofs.Course

namespace TrustRoles

variable {α β : Type} (address : Nat → String)

abbrev LogLine := Severity × String

def LogLine.debug (words : String) : LogLine :=
  (.debug, words)

open LogLine (debug)

def Notice.line (n : Notice) : LogLine :=
  (n.severity, n.text address)

namespace Transcript

def lines (t : Transcript) : List LogLine :=
  t.notices.map (Notice.line address)

theorem lines_append (t u : Transcript) :
    lines address (t ++ u) = lines address t ++ lines address u := by
  rw [lines, notices, List.filterMap_append, List.map_append]
  rfl

end Transcript

theorem KeyUsage.toList_only (u : Usage) : (only u).toList = [u] := by
  cases u <;> decide

namespace Criterion

def condition (c : Criterion) : String :=
  c.parts.getLastD ""

theorem condition_endEntityFor (u : Usage) :
    (endEntityFor u).condition = "keyUsage:" ++ u.name := by
  simp [condition, parts, endEntityFor, KeyUsage.toList_only]

theorem condition_issuing :
    issuing.condition = "basicConstraints pathLen >= " ++ toString (0 : UInt32).toNat := rfl

end Criterion

namespace Exchange

def answerLines : Exchange → List LogLine
  | (_, .error _) => []
  | (_, .ok []) => [debug "No certificates found"]
  | (c, .ok (m :: ms)) =>
      [debug ("Found " ++ toString (m :: ms).length ++ " certificate(s) with " ++ c.text)]

def lines (e : Exchange) : List LogLine :=
  debug ("Selecting candidate with " ++ e.1.condition) :: e.answerLines

end Exchange

def Answer.first : Answer → Except RoleFailure (Option Member)
  | .error f => .error (.query f)
  | .ok members => .ok members.head?

namespace Search

variable {address} {t : Transcript}

theorem course_pure {a : α} {r : Except RoleFailure α} (h : Course (pure a) t r) :
    t = [] ∧ r = .ok a := by
  cases h
  exact ⟨rfl, rfl⟩

theorem course_throw {f : RoleFailure} {r : Except RoleFailure α}
    (h : Course (throw f : Search α) t r) : t = [] ∧ r = .error f := by
  cases h
  exact ⟨rfl, rfl⟩

theorem course_note {n : Notice} {s : Search α} {r : Except RoleFailure α}
    (h : Course (note n >>= fun _ => s) t r) : ∃ u, t = .noted n :: u ∧ Course s u r := by
  change Consultation.Course (.call (.note n) fun _ => s.run) t r at h
  cases h with
  | @note _ _ u _ rest => exact ⟨u, rfl, rest⟩

theorem course_ask {c : Criterion} {r : Except RoleFailure (List Member)}
    (h : Course (ask c) t r) : ∃ a : Answer, t = [.asked c a] ∧ r = a.mapError .query := by
  cases h with
  | ask answer rest => cases answer <;> cases rest <;> exact ⟨_, rfl, rfl⟩

theorem course_first? (address : Nat → String) {c : Criterion}
    {r : Except RoleFailure (Option Member)} (h : Course (first? c) t r) :
    ∃ a : Answer, t.exchanges = [(c, a)] ∧
      t.lines address = Exchange.answerLines (c, a) ∧ r = a.first := by
  rcases h.of_bind with ⟨e, asked, rfl⟩ | ⟨found, u, v, rfl, asked, told⟩
  · obtain ⟨answer, rfl, failed⟩ := course_ask asked
    cases answer with
    | error f =>
        obtain rfl := Except.error.inj failed
        exact ⟨.error f, rfl, rfl, rfl⟩
    | ok ms => cases failed
  · obtain ⟨answer, rfl, answered⟩ := course_ask asked
    cases answer with
    | error f => cases answered
    | ok ms =>
        obtain rfl := Except.ok.inj answered
        refine ⟨.ok found, ?_⟩
        cases found with
        | nil =>
            obtain ⟨w, rfl, ends⟩ := course_note told
            obtain ⟨rfl, rfl⟩ := course_pure ends
            exact ⟨rfl, rfl, rfl⟩
        | cons m rest =>
            obtain ⟨w, rfl, ends⟩ := course_note told
            obtain ⟨rfl, rfl⟩ := course_pure ends
            exact ⟨rfl, rfl, rfl⟩

inductive Settles : List Exchange → Except RoleFailure Member → Prop
  | found (c : Criterion) (m : Member) (rest : List Member) :
      Settles [(c, .ok (m :: rest))] (.ok m)
  | failed (c : Criterion) (f : QueryFailure) : Settles [(c, .error f)] (.error (.query f))
  | missing (c : Criterion) : Settles [(c, .ok [])] (.error (.notFound .issuer))
  | next {es : List Exchange} {r : Except RoleFailure Member} (c : Criterion)
      (later : Settles es r) : Settles ((c, .ok []) :: es) r

def Tells (address : Nat → String) (t : Transcript) (r : Except RoleFailure Member) : Prop :=
  t.lines address = t.exchanges.flatMap Exchange.lines ∧ Settles t.exchanges r

section Query

variable {n : Notice} {c : Criterion} (words : n.line address =
  debug ("Selecting candidate with " ++ c.condition))

include words

theorem course_query {r : Except RoleFailure (Option Member)}
    (h : Course (note n >>= fun _ => first? c) t r) : ∃ a : Answer, t.exchanges = [(c, a)] ∧
      t.lines address = Exchange.lines (c, a) ∧ r = a.first := by
  obtain ⟨u, rfl, asked⟩ := course_note h
  obtain ⟨a, exchanged, told, found⟩ := course_first? address asked
  refine ⟨a, exchanged, ?_, found⟩
  rw [Exchange.lines, ← told, ← words]
  rfl

theorem tells_or_next {k : Option Member → Search Member} {r : Except RoleFailure Member}
    (kept : ∀ m, k (some m) = pure m) (h : Course ((note n >>= fun _ => first? c) >>= k) t r) :
    Tells address t r ∨ ∃ u, t.exchanges = (c, .ok []) :: u.exchanges ∧
      t.lines address = Exchange.lines (c, .ok []) ++ u.lines address ∧ Course (k none) u r := by
  rcases h.of_bind with ⟨e, queried, rfl⟩ | ⟨found, u, v, rfl, queried, rest⟩
  · obtain ⟨a, exchanged, told, failed⟩ := course_query words queried
    cases a with
    | ok ms => cases failed
    | error f =>
        obtain rfl := Except.error.inj failed
        rw [Tells, exchanged, told, List.flatMap_singleton]
        exact .inl ⟨rfl, .failed c f⟩
  · obtain ⟨a, exchanged, told, answered⟩ := course_query words queried
    cases a with
    | error f => cases answered
    | ok ms =>
        obtain rfl := Except.ok.inj answered
        rw [Transcript.exchanges_append, Transcript.lines_append, exchanged, told]
        cases ms with
        | nil => exact .inr ⟨v, rfl, rfl, rest⟩
        | cons m ms =>
            rw [List.head?_cons, kept] at rest
            obtain ⟨rfl, rfl⟩ := course_pure rest
            rw [Tells, Transcript.exchanges_append, Transcript.lines_append, exchanged, told]
            exact .inl ⟨rfl, .found c m ms⟩

end Query

theorem tells_issuer {r : Except RoleFailure Member} (h : Course issuer t r) :
    Tells address t r := by
  have words : (Notice.selectingByPathLength 0).line address =
      debug ("Selecting candidate with " ++ Criterion.issuing.condition) := by
    rw [Criterion.condition_issuing]
    rfl
  rw [issuer, ← bind_assoc] at h
  rcases tells_or_next words (fun m => rfl) h with told | ⟨u, exchanged, told, missing⟩
  · exact told
  · obtain ⟨rfl, rfl⟩ := course_throw missing
    rw [Tells, exchanged, told]
    exact ⟨rfl, .missing .issuing⟩

theorem tells_endEntityOrIssuer {us : List Usage} {r : Except RoleFailure Member}
    (h : Course (endEntityOrIssuer us) t r) : Tells address t r := by
  induction us generalizing t with
  | nil => exact tells_issuer h
  | cons u us ih =>
      have words : (Notice.selectingByUsage u).line address =
          debug ("Selecting candidate with " ++ (Criterion.endEntityFor u).condition) := by
        rw [Criterion.condition_endEntityFor]
        rfl
      rcases tells_or_next words (fun m => rfl) h with told | ⟨v, exchanged, told, later⟩
      · exact told
      · obtain ⟨tells, settles⟩ := ih later
        rw [Tells, exchanged, told, tells]
        exact ⟨rfl, .next _ settles⟩

structure Stage where
  role : Role
  exchanges : List Exchange
  chosen : Option Member

def Stage.lines (s : Stage) : List LogLine :=
  debug ("Looking for " ++ s.role.description) :: s.exchanges.flatMap Exchange.lines ++
    (s.chosen.map fun m =>
      debug ("Chosen certificate " ++ m.label ++ " for " ++ s.role.description)).toList

inductive Stages : List Role → List Stage → Except RoleFailure (List Member) → Prop
  | done : Stages [] [] (.ok [])
  | settled {roles : List Role} {es : List Exchange} {m : Member} {stages : List Stage}
      {r : Except RoleFailure (List Member)} (role : Role) (settles : Settles es (.ok m))
      (later : Stages roles stages r) :
      Stages (role :: roles) (⟨role, es, some m⟩ :: stages) (r.map (m :: ·))
  | failed {es : List Exchange} {f : RoleFailure} (role : Role) (roles : List Role)
      (settles : Settles es (.error f)) : Stages (role :: roles) [⟨role, es, none⟩] (.error f)

def order : List Role :=
  [.recipient, .signer, .issuer]

def Recounts (address : Nat → String) (before : List Member) (roles : List Role)
    (s : Search Assignment) : Prop :=
  ∀ t r, Course s t r → ∃ stages rest, Stages roles stages rest ∧
    t.exchanges = stages.flatMap Stage.exchanges ∧ t.lines address = stages.flatMap Stage.lines ∧
    r.map (fun a => order.map a.get) = rest.map (before ++ ·)

theorem recounts_pure (a : Assignment) : Recounts address (order.map a.get) [] (pure a) := by
  intro t r course
  obtain ⟨rfl, rfl⟩ := course_pure course
  exact ⟨[], .ok [], .done, rfl, rfl, rfl⟩

theorem course_settle {role : Role} {s : Search Member} {r : Except RoleFailure Member}
    (tells : ∀ {u q}, Course s u q → Tells address u q) (h : Course (settle role s) t r) :
    Settles t.exchanges r ∧
      t.lines address = (Stage.mk role t.exchanges r.toOption).lines := by
  obtain ⟨u, rfl, searched⟩ := course_note h
  rcases searched.of_bind with ⟨e, failed, rfl⟩ | ⟨m, v, x, rfl, found, told⟩
  · obtain ⟨told, settles⟩ := tells failed
    refine ⟨settles, ?_⟩
    change _ :: Transcript.lines address u =
      _ :: (Transcript.exchanges u).flatMap Exchange.lines ++ []
    rw [told, List.append_nil]
    rfl
  · obtain ⟨y, rfl, ends⟩ := course_note told
    obtain ⟨rfl, rfl⟩ := course_pure ends
    obtain ⟨told, settles⟩ := tells found
    have exchanged : Transcript.exchanges (.noted (.seeking role) :: (v ++ [.noted (.chosen role m)])) =
        v.exchanges := (Transcript.exchanges_append v _).trans (List.append_nil _)
    rw [exchanged]
    refine ⟨settles, ?_⟩
    change _ :: Transcript.lines address (v ++ [.noted (.chosen role m)]) =
      _ :: v.exchanges.flatMap Exchange.lines ++ _
    rw [Transcript.lines_append, told]
    rfl

theorem Recounts.settle {before : List Member} {role : Role} {roles : List Role}
    {s : Search Member} {k : Member → Search Assignment}
    (tells : ∀ {u q}, Course s u q → Tells address u q)
    (rest : ∀ m, Recounts address (before ++ [m]) roles (k m)) :
    Recounts address before (role :: roles) (Search.settle role s >>= k) := by
  intro t r course
  rcases course.of_bind with ⟨e, failed, rfl⟩ | ⟨m, u, v, rfl, found, later⟩
  · obtain ⟨settles, told⟩ := course_settle tells failed
    refine ⟨[⟨role, t.exchanges, none⟩], .error e, .failed role roles settles, ?_, ?_, rfl⟩
    · exact (List.flatMap_singleton ..).symm
    · rw [told, List.flatMap_singleton]
      rfl
  · obtain ⟨settles, told⟩ := course_settle tells found
    obtain ⟨stages, tail, follow, exchanged, toldLater, ends⟩ := rest m v r later
    refine ⟨⟨role, u.exchanges, some m⟩ :: stages, tail.map (m :: ·), .settled role settles follow,
      ?_, ?_, ?_⟩
    · rw [Transcript.exchanges_append, exchanged, List.flatMap_cons]
    · rw [Transcript.lines_append, told, toldLater, List.flatMap_cons]
      rfl
    · rw [ends]
      cases tail <;> simp [Except.map]

def inventoryLines (members : List Member) : List LogLine :=
  debug (toString members.length ++ " certificate(s) found in collection") ::
    members.mapIdx fun i m => debug (toString (i + 1) ++ ". " ++ m.label)

theorem course_noteMembers (address : Nat → String) {k : Nat} {members : List Member}
    {r : Except RoleFailure Unit} (h : Course (noteMembers k members) t r) : t.exchanges = [] ∧
      t.lines address = (members.mapIdx fun i m => debug (toString (k + i + 1) ++ ". " ++ m.label)) ∧
      r = .ok () := by
  induction members generalizing k t with
  | nil =>
      obtain ⟨rfl, rfl⟩ := course_pure h
      exact ⟨rfl, rfl, rfl⟩
  | cons m members ih =>
      obtain ⟨u, rfl, later⟩ := course_note h
      obtain ⟨exchanged, told, ends⟩ := ih later
      refine ⟨exchanged, ?_, ends⟩
      rw [List.mapIdx_cons]
      change (Notice.inventoried (k + 1) m).line address :: Transcript.lines address u = _
      rw [told]
      congr 2
      funext i x
      rw [Nat.add_assoc k 1 i, Nat.add_comm 1 i, ← Nat.add_assoc]

theorem course_inventory (address : Nat → String) {r : Except RoleFailure Unit}
    (h : Course inventory t r) :
    (∃ e, t = [.asked .any (.error e)] ∧ r = .error (.query e)) ∨
    ∃ members, t.exchanges = [(.any, .ok members)] ∧ t.lines address = inventoryLines members ∧
      r = .ok () := by
  rcases h.of_bind with ⟨e, asked, rfl⟩ | ⟨members, u, v, rfl, asked, told⟩
  · obtain ⟨a, rfl, failed⟩ := course_ask asked
    cases a with
    | ok ms => cases failed
    | error f =>
        obtain rfl := Except.error.inj failed
        exact .inl ⟨f, rfl, rfl⟩
  · obtain ⟨a, rfl, answered⟩ := course_ask asked
    cases a with
    | error f => cases answered
    | ok ms =>
        obtain rfl := Except.ok.inj answered
        obtain ⟨w, rfl, noted⟩ := course_note told
        obtain ⟨exchanged, told, ends⟩ := course_noteMembers address noted
        refine .inr ⟨members, ?_, ?_, ends⟩
        · change (.any, .ok members) :: Transcript.exchanges w = _
          rw [exchanged]
        · change (Notice.inventory members.length).line address :: Transcript.lines address w = _
          rw [told, inventoryLines]
          simp only [Nat.zero_add]
          rfl

theorem recounts_assignment (address : Nat → String) {t : Transcript}
    {r : Except RoleFailure Assignment} (h : Course assignment t r) :
    (∃ e, t = [.asked .any (.error e)] ∧ r = .error (.query e)) ∨
    ∃ members stages, Stages order stages (r.map fun a => order.map a.get) ∧
      t.exchanges = (.any, .ok members) :: stages.flatMap Stage.exchanges ∧
      t.lines address = inventoryLines members ++ stages.flatMap Stage.lines := by
  have recounts : Recounts address [] order (do
      let r ← Search.settle .recipient recipient
      let s ← Search.settle .signer signer
      let i ← Search.settle .issuer issuer
      pure ⟨s, r, i⟩) :=
    .settle tells_endEntityOrIssuer fun r => .settle tells_endEntityOrIssuer fun s =>
      .settle tells_issuer fun i => recounts_pure ⟨s, r, i⟩
  rcases h.of_bind with ⟨e, failed, rfl⟩ | ⟨_, u, v, rfl, found, later⟩
  · rcases course_inventory address failed with ⟨f, rfl, same⟩ | ⟨_, -, -, same⟩
    · obtain rfl := Except.error.inj same
      exact .inl ⟨f, rfl, rfl⟩
    · cases same
  · rcases course_inventory address found with ⟨f, -, same⟩ | ⟨members, asked, told, -⟩
    · cases same
    · obtain ⟨stages, rest, follow, exchanged, toldLater, ends⟩ := recounts v r later
      refine .inr ⟨members, stages, ?_, ?_, ?_⟩
      · have same : rest.map (([] : List Member) ++ ·) = rest := by cases rest <;> rfl
        rw [ends, same]
        exact follow
      · rw [Transcript.exchanges_append, asked, exchanged]
        rfl
      · rw [Transcript.lines_append, told, toldLater]

namespace Settles

variable {es : List Exchange} {m : Member} {f : RoleFailure} {c : Criterion} {q : QueryFailure}

theorem getLast?_of_ok (h : Settles es (.ok m)) :
    ∃ c rest, es.getLast? = some (c, .ok (m :: rest)) := by
  generalize settled : (Except.ok m : Except RoleFailure Member) = r at h
  induction h with
  | found c _ rest =>
      obtain rfl := Except.ok.inj settled
      exact ⟨c, rest, rfl⟩
  | failed => cases settled
  | missing => cases settled
  | next d _ ih =>
      obtain ⟨c, rest, last⟩ := ih settled
      exact ⟨c, rest, by rw [List.getLast?_cons, last]; rfl⟩

theorem not_mem_of_ok (h : Settles es (.ok m)) : (c, .error q) ∉ es := by
  generalize settled : (Except.ok m : Except RoleFailure Member) = r at h
  induction h with
  | found => exact fun among => by cases List.mem_singleton.mp among
  | failed => cases settled
  | missing => cases settled
  | next d _ ih =>
      intro among
      rcases List.mem_cons.mp among with same | later
      · cases same
      · exact ih settled later

theorem eq_concat_of_mem {r : Except RoleFailure Member} (h : Settles es r)
    (among : (c, .error q) ∈ es) : ∃ early, es = early ++ [(c, .error q)] := by
  induction h with
  | found => cases List.mem_singleton.mp among
  | failed d f =>
      rw [List.mem_singleton.mp among]
      exact ⟨[], rfl⟩
  | missing => cases List.mem_singleton.mp among
  | next d _ ih =>
      rcases List.mem_cons.mp among with same | later
      · cases same
      · obtain ⟨early, rfl⟩ := ih later
        exact ⟨_ :: early, rfl⟩

end Settles

namespace Stages

variable {roles : List Role} {stages : List Stage} {r : Except RoleFailure (List Member)}

theorem map_role_prefix (h : Stages roles stages r) : stages.map Stage.role <+: roles := by
  induction h with
  | done => exact List.prefix_refl _
  | settled role _ _ ih => exact List.cons_prefix_cons.mpr ⟨rfl, ih⟩
  | failed role roles => exact List.cons_prefix_cons.mpr ⟨rfl, List.nil_prefix⟩

theorem chosen_of_ok {members : List Member} (h : Stages roles stages (.ok members)) :
    stages.map (fun s => (s.role, s.chosen)) = roles.zip (members.map some) := by
  generalize settled : (Except.ok members : Except RoleFailure (List Member)) = r at h
  induction h generalizing members with
  | done =>
      obtain rfl := Except.ok.inj settled
      rfl
  | @settled _ _ m _ r role _ _ ih =>
      cases r with
      | error e => cases settled
      | ok later =>
          obtain rfl := Except.ok.inj settled
          rw [List.map_cons, ih rfl]
          rfl
  | failed => cases settled

theorem chosen_of_error {f : RoleFailure} (h : Stages roles stages (.error f)) :
    ∃ settled last, stages = settled ++ [last] ∧ (∀ s ∈ settled, s.chosen.isSome = true) ∧
      last.chosen = none := by
  generalize failed : (Except.error f : Except RoleFailure (List Member)) = r at h
  induction h with
  | done => cases failed
  | @settled _ es m _ r role _ _ ih =>
      cases r with
      | ok later => cases failed
      | error e =>
          obtain ⟨settled, last, rfl, chosen, unchosen⟩ := ih failed
          exact ⟨⟨role, es, some m⟩ :: settled, last, rfl,
            List.forall_mem_cons.mpr ⟨rfl, chosen⟩, unchosen⟩
  | failed role roles => exact ⟨[], _, rfl, List.forall_mem_nil _, rfl⟩

theorem first_of_chosen (h : Stages roles stages r) : ∀ s ∈ stages, ∀ m, s.chosen = some m →
    ∃ c rest, s.exchanges.getLast? = some (c, .ok (m :: rest)) := by
  induction h with
  | done => exact List.forall_mem_nil _
  | settled role settles _ ih =>
      refine List.forall_mem_cons.mpr ⟨fun m same => ?_, ih⟩
      obtain rfl := Option.some.inj same
      exact settles.getLast?_of_ok
  | failed => exact List.forall_mem_singleton.mpr fun m same => by cases same

theorem getLast?_of_failed {c : Criterion} {q : QueryFailure} (h : Stages roles stages r)
    (among : (c, .error q) ∈ stages.flatMap Stage.exchanges) :
    (stages.flatMap Stage.lines).getLast? =
      some (debug ("Selecting candidate with " ++ c.condition)) := by
  induction h with
  | done => cases among
  | settled role settles _ ih =>
      rw [List.flatMap_cons] at among ⊢
      rcases List.mem_append.mp among with here | later
      · exact absurd here settles.not_mem_of_ok
      · rw [List.getLast?_append, ih later]
        rfl
  | failed role roles settles =>
      rw [List.flatMap_singleton] at among ⊢
      obtain ⟨early, rfl⟩ := settles.eq_concat_of_mem among
      rw [Stage.lines, List.flatMap_append, Option.map_none, Option.toList_none, List.append_nil,
        List.flatMap_singleton, ← List.cons_append, Exchange.lines]
      exact List.getLast?_concat

end Stages

end Search

theorem Scripted.run_consult_noting (s : Scripted) (i : Consultation α) (t : Transcript)
    (w : World) :
    World.run ((Source.scripted { s with asked := t.criteria }).consult i)
        ⟨w.files, w.notices ++ t.notices⟩ =
      (((s.present.consult i t).1, .scripted { s with asked := (s.present.consult i t).2.criteria }),
        ⟨w.files, w.notices ++ (s.present.consult i t).2.notices⟩) := by
  induction i generalizing t with
  | done a => rfl
  | call c next ih =>
      cases c with
      | ask c =>
          have later := ih (s.present t.criteria c) (t ++ [.asked c (s.present t.criteria c)])
          have silent : Transcript.notices (t ++ [.asked c (s.present t.criteria c)]) =
              t.notices := (List.filterMap_append ..).trans (List.append_nil _)
          rw [Transcript.criteria_snoc_asked, silent] at later
          exact later
      | note n =>
          have later := ih () (t ++ [.noted n])
          have noted : Transcript.notices (t ++ [.noted n]) = t.notices ++ [n] :=
            List.filterMap_append ..
          rw [Transcript.criteria_snoc_noted, noted, ← List.append_assoc] at later
          exact later

open Search (Stage order inventoryLines)

end TrustRoles
