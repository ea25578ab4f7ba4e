import TrustRoles.Proofs.Choice
import TrustRoles.Proofs.Inspection.Contents

namespace TrustRoles.Inspection

def reply : Except Fault (List Member) → Except Fault Report
  | .error f => .error (.roles (.query f.toQueryFailure))
  | .ok members => match (Listing.mk members).outcome Search.assignment with
      | .error f => .error (.roles f)
      | .ok a => .ok (.ofMembers members a)

variable {m : Memo} {p : Nat} {source : Source}

def finish (memo : Memo) (filed : Filed) : Answer → Consultation (Except Fault Report × Memo)
  | .error f => pure (.error (.roles (.query f)), memo)
  | .ok members => do
      Consultation.note (.resolved filed.assignment)
      pure (.ok (.ofMembers members filed.assignment), memo)

def conclude (memo : Memo) :
    Except RoleFailure Filed → Consultation (Except Fault Report × Memo)
  | .error f => pure (.error (.roles f), memo)
  | .ok filed => Consultation.ask .any >>= finish memo filed

theorem inspect_eq (alive : Nat → Bool) :
    inspect alive p m = m.fetch alive p >>= fun r => conclude r.2 r.1 :=
  rfl

theorem run_inspect_of_fetch {alive : Nat → Bool} {w x : World} {r : Except RoleFailure Filed}
    {m' : Memo} {after : Source}
    (fetched : World.run (source.consult (m.fetch alive p)) w = (((r, m'), after), x)) :
    World.run (source.consult (inspect alive p m)) w =
      World.run (after.consult (conclude m' r)) x := by
  have ran := Source.run_carryOut_bind (m.fetch alive p) (fun r => conclude r.2 r.1) source w
  unfold Source.consult at fetched
  rw [fetched] at ran
  rw [inspect_eq]
  exact ran

theorem run_conclude (m : Memo) (r : Except RoleFailure Filed) (source : Source) (w : World) :
    ∃ report after x, World.run (source.consult (conclude m r)) w = (((report, m), after), x) := by
  cases r with
  | error f => exact ⟨_, _, _, rfl⟩
  | ok filed =>
      have asked := Source.run_carryOut_ask .any (finish m filed) source w
      rcases answered : World.run (source.answer .any) w with ⟨⟨a, after⟩, x⟩
      rw [answered] at asked
      cases a with
      | error f => exact ⟨_, after, x, asked⟩
      | ok members =>
          exact ⟨_, after, { x with notices := x.notices ++ [.resolved filed.assignment] }, asked⟩

structure Replies (contents : Except Fault (List Member)) (report : Except Fault Report)
    (after : Source) : Prop where
  reply : report = reply contents
  settled : ∀ members, contents = .ok members → after.Settled members

theorem replies_of_conclude {r : Except RoleFailure Filed} {w x : World} {after : Source}
    {report : Except Fault Report} {contents : Except Fault (List Member)}
    (h : World.run (source.consult (conclude m r)) w = (((report, m), after), x))
    (finds : Memo.Finds contents r source) : Replies contents report after := by
  cases contents with
  | error f =>
      obtain rfl : r = .error (.query f.toQueryFailure) := finds
      cases h
      exact ⟨rfl, fun members same => by cases same⟩
  | ok members =>
      obtain ⟨settled, found⟩ := finds
      obtain ⟨x', ran⟩ := settled.run_consult (conclude m r) w
      obtain ⟨same, -⟩ := Prod.mk.inj (h.symm.trans ran)
      obtain ⟨replied, rfl⟩ := Prod.mk.inj same
      refine ⟨?_, fun ms same => Except.ok.inj same ▸ settled⟩
      rw [reply, ← found]
      cases r with
      | error f => exact congrArg Prod.fst replied
      | ok filed =>
          have concluded : ((Listing.mk members).oracle.consult (conclude m (.ok filed)) []).1 =
              (.ok (.ofMembers members filed.assignment), m) := by
            change ((Listing.mk members).oracle.consult
              (finish m filed (.ok ((Listing.mk members).select .any))) _).1 = _
            rw [Listing.select_any]
            rfl
          exact congrArg Prod.fst (replied.trans concluded)

theorem run_inspect (alive : Nat → Bool) (live : alive p = true)
    (backed : ∀ f, m.filed? p = some f → source.Backs f.assignment) (w : World) :
    ∃ report m' after x,
      World.run (source.consult (inspect alive p m)) w = (((report, m'), after), x) ∧
      (∀ a, source.Backs a → after.Backs a) ∧ m.Adds m' p after ∧
      ∀ contents, source.contents? w.files = some contents → Replies contents report after := by
  obtain ⟨r, m', after, x, fetched, keeps, adds, finds⟩ := Memo.run_fetch_backed live backed w
  obtain ⟨report, after', x', concluded⟩ := run_conclude m' r after x
  have kept (a : Assignment) (backs : after.Backs a) : after'.Backs a := by
    have kept := backs.consult (conclude m' r) x
    rwa [concluded] at kept
  refine ⟨report, m', after', x', (run_inspect_of_fetch fetched).trans concluded,
    fun a backs => kept a (keeps a backs), fun q f filed => ?_,
    fun contents held => replies_of_conclude concluded (finds contents held)⟩
  exact (adds q f filed).imp_right fun ⟨here, backs⟩ => ⟨here, kept _ backs⟩

theorem run_inspectPaths_of_inspect {alive : Nat → Bool} {number : Nat} {paths : List Path}
    (given : paths ≠ []) {w x : World} {r : Except Fault Report × Memo} {after : Source}
    (ran : World.run ((Source.files ⟨number, paths, none⟩).consult
        (inspect (fun q => q == p || alive q) p m))
      { w with notices := w.notices ++ [.inspecting paths.length] } = ((r, after), x)) :
    World.run (inspectPaths alive p number paths m) w = (r, x) := by
  have filled : paths.isEmpty = false := List.isEmpty_eq_false_iff.mpr given
  have noted : World.run (inspectPaths alive p number paths m) w =
      World.run ((Source.files ⟨number, paths, none⟩).consult
          (inspect (fun q => q == p || alive q) p m) >>= fun r => pure r.1)
        { w with notices := w.notices ++ [.inspecting paths.length] } := by
    rw [inspectPaths, filled]
    rfl
  rw [noted, World.run_bind, ran]
  rfl

theorem run_inspectPaths (alive : Nat → Bool) (unfiled : m.filed? p = none) (number : Nat)
    {paths : List Path} (given : paths ≠ []) (w : World) :
    ∃ report m' after x,
      World.run (inspectPaths alive p number paths m) w = ((report, m'), x) ∧ m.Adds m' p after ∧
      Replies ((FileSource.mk number paths none).onDisk w.files) report after := by
  have live : (p == p || alive p) = true := by rw [beq_self_eq_true, Bool.true_or]
  have backed : ∀ f, m.filed? p = some f →
      (Source.files ⟨number, paths, none⟩).Backs f.assignment := fun f filed => by
    rw [unfiled] at filed
    cases filed
  obtain ⟨report, m', after, x, ran, -, adds, replies⟩ := run_inspect
    (fun q => q == p || alive q) live backed
    { w with notices := w.notices ++ [.inspecting paths.length] }
  exact ⟨report, m', after, x, run_inspectPaths_of_inspect given ran, adds, replies _ rfl⟩

def anew (source : Source) (w : World) : Except Fault Report :=
  (World.run (source.consult (inspect (fun _ => true) 0 .empty)) w).1.1.1

theorem anew_eq {w : World} {contents : Except Fault (List Member)}
    (held : source.contents? w.files = some contents) : anew source w = reply contents := by
  have backed : ∀ f, Memo.empty.filed? 0 = some f → source.Backs f.assignment := fun f filed => by
    cases filed
  obtain ⟨report, m', after, x, ran, -, -, replies⟩ := run_inspect (fun _ => true) rfl backed w
  rw [anew, ran]
  exact (replies contents held).reply

structure Inspected (contents : Except Fault (List Member)) (r : Except Fault Report) : Prop where
  report : ∀ report, r = .ok report → ∃ members a, contents = .ok members ∧
    (Listing.mk members).outcome Search.assignment = .ok a ∧
    report.certificates = members.map (fun m => .ofProfile m.profile) ∧
    report.roles = .ofAssignment a ∧
    (∀ role, report.roles.get role ∈ report.certificates) ∧
    report.roles.issuer.isAuthority = true
  query : ∀ q, r = .error (.roles (.query q)) ↔ ∃ f, contents = .error f ∧ q = f.toQueryFailure
  notFound : ∀ role, r = .error (.roles (.notFound role)) ↔ role = .issuer ∧
    ∃ members, contents = .ok members ∧ ∀ m ∈ members, m.isAuthority = false
  roles : ∀ f, r = .error f → ∃ e, f = .roles e

theorem get_ofAssignment (a : Assignment) (role : Role) :
    (Report.Roles.ofAssignment a).get role = .ofProfile (a.get role).profile := by
  cases role <;> rfl

theorem inspected_of_error (f : Fault) :
    Inspected (.error f) (.error (.roles (.query f.toQueryFailure))) where
  report report found := by cases found
  query q := by
    constructor
    · intro failed
      cases failed
      exact ⟨f, rfl, rfl⟩
    · rintro ⟨g, same, rfl⟩
      cases same
      rfl
  notFound role := by
    refine iff_of_false (fun failed => by cases failed) ?_
    rintro ⟨-, members, same, -⟩
    cases same
  roles g failed := ⟨_, (Except.error.inj failed).symm⟩

theorem inspected_of_unfilled {members : List Member}
    (ends : ∀ m ∈ members, m.isAuthority = false) :
    Inspected (.ok members) (.error (.roles (.notFound .issuer))) where
  report report found := by cases found
  query q := by
    refine iff_of_false (fun same => by cases same) ?_
    rintro ⟨f, same, -⟩
    cases same
  notFound role := by
    constructor
    · intro same
      cases same
      exact ⟨rfl, members, rfl, ends⟩
    · rintro ⟨rfl, -⟩
      rfl
  roles f failed := ⟨_, (Except.error.inj failed).symm⟩

theorem inspected_of_outcome {members : List Member} {a : Assignment}
    (found : (Listing.mk members).outcome Search.assignment = .ok a) :
    Inspected (.ok members) (.ok (.ofMembers members a)) := by
  have chosen := Listing.get_mem_of_outcome found
  have authority := Listing.isAuthority_of_issuer?
    (Listing.outcome_assignment_eq_ok_iff.mp found).1
  refine ⟨fun report same => ?_, fun q => ?_, fun role => ?_, fun f same => by cases same⟩
  · obtain rfl := Except.ok.inj same
    refine ⟨members, a, rfl, found, rfl, rfl, fun role => ?_, authority⟩
    rw [Report.ofMembers, get_ofAssignment]
    exact List.mem_map_of_mem (chosen role)
  · refine iff_of_false (fun same => by cases same) ?_
    rintro ⟨f, same, -⟩
    cases same
  · refine iff_of_false (fun same => by cases same) ?_
    rintro ⟨-, ms, same, ends⟩
    obtain rfl := Except.ok.inj same
    cases authority.symm.trans (ends a.issuer (chosen .issuer))

theorem inspected_reply (contents : Except Fault (List Member)) :
    Inspected contents (reply contents) := by
  cases contents with
  | error f => exact inspected_of_error f
  | ok members =>
      rw [reply]
      cases found : (Listing.mk members).outcome Search.assignment with
      | error e =>
          obtain ⟨rfl, ends⟩ := Listing.outcome_assignment_eq_error_iff.mp found
          exact inspected_of_unfilled ends
      | ok a => exact inspected_of_outcome found

end TrustRoles.Inspection
