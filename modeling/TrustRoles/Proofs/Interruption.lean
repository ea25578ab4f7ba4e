import TrustRoles.Proofs.Course
import TrustRoles.Proofs.Rearrangement

namespace TrustRoles

variable {α β : Type}

theorem Search.Prompt.next {c : Criterion} {next : Answer → Consultation (Except RoleFailure α)}
    (prompt : Prompt (.call (.ask c) next)) (a : Answer) : Prompt (next a) := by
  cases a with
  | ok ms => exact prompt.2 ms
  | error f =>
      rw [prompt.1 f]
      trivial

namespace Oracle

theorem criteria_prefix_consult (o : Oracle) (i : Consultation α) (t : Transcript) :
    t.criteria <+: (o.consult i t).2.criteria := by
  obtain ⟨u, longer, -⟩ := Consultation.course_consult o i t
  rw [longer, Transcript.criteria_append]
  exact List.prefix_append ..

theorem consult_failingFrom (o : Oracle) {n : Nat} (f : QueryFailure)
    {i : Consultation (Except RoleFailure α)} (prompt : Search.Prompt i) {t : Transcript}
    (early : t.criteria.length ≤ n) :
    let sound := o.consult i t
    let failing := (o.failingFrom n f).consult i t
    (sound.2.criteria.length ≤ n → failing = sound) ∧
      (n < sound.2.criteria.length → failing.1 = .error (.query f) ∧
        failing.2.criteria = sound.2.criteria.take (n + 1)) := by
  induction i generalizing t with
  | done r => exact ⟨fun _ => rfl, fun late => absurd early (Nat.not_le_of_lt late)⟩
  | call c next ih =>
      cases c with
      | note m => exact ih () prompt ((Transcript.criteria_snoc_noted t m).symm ▸ early)
      | ask c =>
          have asked := o.criteria_prefix_consult (next (o t.criteria c))
            (t ++ [.asked c (o t.criteria c)])
          rw [Transcript.criteria_snoc_asked] at asked
          by_cases now : n ≤ t.criteria.length
          · obtain rfl : t.criteria.length = n := Nat.le_antisymm early now
            -- this question is the first to fail, and the last
            have failed : (o.failingFrom t.criteria.length f).consult (.call (.ask c) next) t =
                (.error (.query f), t ++ [.asked c (.error f)]) := by
              rw [consult, failingFrom, if_pos (Nat.le_refl _), prompt.1]
              rfl
            have longer := asked.length_le
            rw [List.length_append, List.length_singleton] at longer
            refine ⟨fun short => absurd (Nat.le_trans longer short) (Nat.not_succ_le_self _), ?_⟩
            intro _
            rw [failed]
            refine ⟨rfl, (Transcript.criteria_snoc_asked ..).trans ?_⟩
            have first := List.prefix_iff_eq_take.mp asked
            rw [List.length_append, List.length_singleton] at first
            exact first
          · have answered : o.failingFrom n f t.criteria c = o t.criteria c := if_neg now
            have within : (Transcript.criteria (t ++ [.asked c (o t.criteria c)])).length ≤ n := by
              rw [Transcript.criteria_snoc_asked, List.length_append, List.length_singleton]
              exact Nat.lt_of_not_le now
            dsimp only [consult]
            rw [answered]
            exact ih _ (prompt.next _) within

end Oracle

namespace Listing

def serves (l : Listing) (u : Usage) : Bool :=
  l.members.any fun m => m.profile.isFitFor u

def hasAuthority (l : Listing) : Bool :=
  l.members.any Member.isAuthority

def course (l : Listing) : List Criterion :=
  let whole := [.any, .endEntityFor .keyEncipherment] ++
    (if l.serves .keyEncipherment then [] else [.endEntityFor .dataEncipherment]) ++
    (if l.serves .keyEncipherment || l.serves .dataEncipherment then [] else [.issuing]) ++
    [.endEntityFor .digitalSignature] ++
    (if l.serves .digitalSignature then [] else [.issuing]) ++ [.issuing]
  if l.hasAuthority then whole else whole.takeWhile (fun c => c != .issuing) ++ [.issuing]

theorem isSome_fit? (l : Listing) (u : Usage) : (l.fit? u).isSome = l.serves u :=
  List.isSome_find? ..

theorem isSome_issuer? (l : Listing) : l.issuer?.isSome = l.hasAuthority :=
  List.isSome_find? ..

section Asked

variable (l : Listing)

@[simp] theorem asked_pure (a : α) : l.asked (pure a : Search α) = [] := rfl

@[simp] theorem asked_note (n : Notice) : l.asked (Search.note n) = [] := rfl

@[simp] theorem asked_ask (c : Criterion) : l.asked (Search.ask c) = [c] := rfl

@[simp] theorem askedAfter_ok (f : α → Search β) (a : α) :
    l.askedAfter f (.ok a) = l.asked (f a) := rfl

@[simp] theorem asked_first? (c : Criterion) : l.asked (Search.first? c) = [c] := by
  rw [Search.first?, asked_bind, outcome_ask, asked_ask, askedAfter_ok]
  cases l.select c with
  | nil => rfl
  | cons m rest => rfl

@[simp] theorem asked_issuer : l.asked Search.issuer = [.issuing] := by
  simp only [Search.issuer, asked_bind, asked_note, outcome_note, askedAfter_ok, asked_first?,
    outcome_first?]
  cases l.members.find? fun m => Criterion.issuing.accepts m.profile with
  | none => rfl
  | some m => rfl

theorem asked_endEntityOrIssuer (u : Usage) (us : List Usage) :
    l.asked (Search.endEntityOrIssuer (u :: us)) = .endEntityFor u ::
      if l.serves u then [] else l.asked (Search.endEntityOrIssuer us) := by
  have first : l.asked (Search.endEntity? u) = [.endEntityFor u] := by
    simp [Search.endEntity?, asked_bind]
  rw [Search.endEntityOrIssuer, asked_bind, first, outcome_endEntity?, askedAfter_ok,
    ← isSome_fit?]
  cases l.fit? u with
  | none => rfl
  | some m => rfl

theorem asked_noteMembers (k : Nat) (ms : List Member) :
    l.asked (Search.noteMembers k ms) = [] := by
  induction ms generalizing k with
  | nil => rfl
  | cons m ms ih =>
      rw [Search.noteMembers, asked_bind, asked_note, outcome_note, askedAfter_ok, List.nil_append]
      exact ih (k + 1)

theorem asked_inventory : l.asked Search.inventory = [.any] := by
  simp [Search.inventory, asked_bind, asked_noteMembers]

theorem asked_settle (role : Role) (s : Search Member) :
    l.asked (Search.settle role s) = l.asked s := by
  simp only [Search.settle, asked_bind, asked_note, outcome_note, askedAfter_ok, List.nil_append]
  cases l.outcome s with
  | ok m => exact List.append_nil _
  | error e => exact List.append_nil _

theorem asked_recipient : l.asked Search.recipient = .endEntityFor .keyEncipherment ::
    if l.serves .keyEncipherment then [] else .endEntityFor .dataEncipherment ::
      if l.serves .dataEncipherment then [] else [.issuing] := by
  rw [Search.recipient, asked_endEntityOrIssuer, asked_endEntityOrIssuer, Search.endEntityOrIssuer,
    asked_issuer]

theorem asked_signer : l.asked Search.signer = .endEntityFor .digitalSignature ::
    if l.serves .digitalSignature then [] else [.issuing] := by
  rw [Search.signer, asked_endEntityOrIssuer, Search.endEntityOrIssuer, asked_issuer]

theorem isSome_signer? :
    l.signer?.isSome = (l.serves .digitalSignature || l.hasAuthority) := by
  rw [signer?, Option.isSome_or, isSome_fit?, isSome_issuer?]

theorem isSome_recipient? : l.recipient?.isSome =
    (l.serves .keyEncipherment || l.serves .dataEncipherment || l.hasAuthority) := by
  rw [recipient?, Option.isSome_or, Option.isSome_or, isSome_fit?, isSome_issuer?]
  cases fit : l.fit? .keyEncipherment with
  | none => rw [← fit?_eq_marked? fit, isSome_fit?]
  | some m =>
      have serves : l.serves .keyEncipherment = true := by
        rw [← isSome_fit?, fit, Option.isSome_some]
      simp [serves]

theorem askedAfter_required {f : Member → Search β} {cs : List Criterion}
    (next : ∀ m, l.asked (f m) = cs) (found : Option Member) :
    l.askedAfter f (required found) = if found.isSome then cs else [] := by
  cases found with
  | none => rfl
  | some m => exact next m

theorem asked_settle_bind (role : Role) {s : Search Member} {found : Option Member}
    (searched : l.outcome s = required found) {f : Member → Search β} {cs : List Criterion}
    (next : ∀ m, l.asked (f m) = cs) :
    l.asked (Search.settle role s >>= f) = l.asked s ++ if found.isSome then cs else [] := by
  rw [asked_bind, asked_settle, outcome_settle, searched, askedAfter_required l next]

theorem asked_assignment_eq : l.asked Search.assignment = .any :: (l.asked Search.recipient ++
    if l.recipient?.isSome then
      l.asked Search.signer ++ if l.signer?.isSome then [.issuing] else []
    else []) := by
  have last (r s : Member) : l.asked (do
      let i ← Search.settle .issuer Search.issuer
      pure (Assignment.mk s r i)) = [.issuing] := by
    rw [asked_settle_bind l .issuer l.outcome_issuer fun i => asked_pure l _, asked_issuer,
      ite_self, List.append_nil]
  have signing (r : Member) := asked_settle_bind l .signer l.outcome_signer (last r)
  rw [Search.assignment, asked_bind, asked_inventory, outcome_inventory, askedAfter_ok,
    asked_settle_bind l .recipient l.outcome_recipient signing]
  rfl

theorem asked_assignment : l.asked Search.assignment = l.course := by
  rw [asked_assignment_eq, isSome_recipient?, isSome_signer?, asked_recipient, asked_signer, course]
  generalize l.serves .keyEncipherment = key, l.serves .dataEncipherment = data,
    l.serves .digitalSignature = signature, l.hasAuthority = authority
  cases key <;> cases data <;> cases signature <;> cases authority <;> rfl

example : (Listing.mk []).course = [.any, .endEntityFor .keyEncipherment,
    .endEntityFor .dataEncipherment, .issuing] := by decide

end Asked

theorem run_consult_sound (l : Listing) (f : QueryFailure) (asked : List Criterion)
    (i : Consultation α) (w : World) :
    (World.run ((Source.scripted ⟨l.oracle, none, f, asked⟩).consult i) w).1 =
      ((l.oracle.consult i []).1,
        .scripted ⟨l.oracle, none, f, asked ++ (l.oracle.consult i []).2.criteria⟩) := by
  obtain ⟨t, rfl⟩ := Transcript.exists_criteria_eq asked
  rw [l.consult_fst i [] t, ← criteria_consult]
  exact Scripted.run_consult ⟨l.oracle, none, f, []⟩ i t w

theorem run_search_sound (l : Listing) (f : QueryFailure) (asked : List Criterion) (s : Search α)
    (w : World) :
    (World.run ((Source.scripted ⟨l.oracle, none, f, asked⟩).consult s.run) w).1 =
      (l.outcome s, .scripted ⟨l.oracle, none, f, asked ++ l.asked s⟩) :=
  l.run_consult_sound f asked s.run w

theorem run_assignment_failing (l : Listing) (n : Nat) (f : QueryFailure) (w : World) :
    (World.run ((Source.scripted ⟨l.oracle, some n, f, []⟩).consult Search.assignment.run) w).1 =
      if n < (l.asked Search.assignment).length then
        (.error (.query f), .scripted
          ⟨l.oracle, some n, f, (l.asked Search.assignment).take (n + 1)⟩)
      else (l.outcome Search.assignment, .scripted
        ⟨l.oracle, some n, f, l.asked Search.assignment⟩) := by
  obtain ⟨late, early⟩ := l.oracle.consult_failingFrom f Search.prompt_assignment (t := [])
    (Nat.zero_le n)
  refine (Scripted.run_consult ⟨l.oracle, some n, f, []⟩ _ [] w).trans ?_
  dsimp only [Scripted.present]
  split
  · rename_i cut
    rw [(early cut).1, (early cut).2]
    rfl
  · rename_i whole
    rw [late (Nat.le_of_not_lt whole)]
    rfl

theorem interruption (l : Listing) (n : Nat) (f : QueryFailure) (w : World) :
    let searched (failsFrom : Option Nat) :=
      (World.run ((Source.scripted ⟨l.oracle, failsFrom, f, []⟩).consult Search.assignment.run) w).1
    searched none =
        (l.outcome Search.assignment, .scripted ⟨l.oracle, none, f, l.course⟩) ∧
      searched (some n) = if n < l.course.length then
          (.error (.query f), .scripted ⟨l.oracle, some n, f, l.course.take (n + 1)⟩)
        else (l.outcome Search.assignment, .scripted ⟨l.oracle, some n, f, l.course⟩) := by
  intro searched
  rw [← asked_assignment]
  exact ⟨l.run_search_sound f [] Search.assignment w, l.run_assignment_failing n f w⟩

end Listing

end TrustRoles
