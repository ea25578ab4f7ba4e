import TrustRoles.Collection.Source
import TrustRoles.Resolution

namespace TrustRoles

variable {α β : Type}

namespace Consultation

def IsSilent : Consultation α → Prop
  | .done _ => True
  | .call (.ask _) _ => False
  | .call (.note _) next => IsSilent (next ())

end Consultation

namespace Oracle

theorem consult_bind (o : Oracle) (i : Consultation α) (f : α → Consultation β) (t : Transcript) :
    o.consult (i >>= f) t = o.consult (f (o.consult i t).1) (o.consult i t).2 := by
  induction i generalizing t with
  | done a => rfl
  | call c next ih =>
      cases c with
      | ask c => exact ih _ _
      | note n => exact ih _ _

end Oracle

namespace Listing

theorem consult_fst (l : Listing) (i : Consultation α) (t u : Transcript) :
    (l.oracle.consult i t).1 = (l.oracle.consult i u).1 := by
  induction i generalizing t u with
  | done a => rfl
  | call c next ih =>
      cases c with
      | ask c => exact ih _ _ _
      | note n => exact ih _ _ _

theorem answer_of_mem_consult {l : Listing} {i : Consultation α} {t : Transcript}
    {c : Criterion} {a : Answer} (h : .asked c a ∈ (l.oracle.consult i t).2) :
    .asked c a ∈ t ∨ a = .ok (l.select c) := by
  induction i generalizing t with
  | done b => exact .inl h
  | call d next ih =>
      cases d with
      | ask d =>
          rcases ih _ h with early | answered
          · rcases List.mem_append.mp early with old | new
            · exact .inl old
            · cases List.mem_singleton.mp new
              exact .inr rfl
          · exact .inr answered
      | note n =>
          rcases ih _ h with early | answered
          · rcases List.mem_append.mp early with old | new
            · exact .inl old
            · cases List.mem_singleton.mp new
          · exact .inr answered

def outcome (l : Listing) (s : Search α) : Except RoleFailure α :=
  (l.oracle.consult s.run []).1

@[simp] theorem outcome_pure (l : Listing) (a : α) : l.outcome (pure a) = .ok a := rfl

@[simp] theorem outcome_throw (l : Listing) (f : RoleFailure) :
    l.outcome (throw f : Search α) = .error f := rfl

@[simp] theorem outcome_note (l : Listing) (n : Notice) :
    l.outcome (Search.note n) = .ok () := rfl

@[simp] theorem outcome_ask (l : Listing) (c : Criterion) :
    l.outcome (Search.ask c) = .ok (l.select c) := rfl

@[simp] theorem outcome_bind (l : Listing) (s : Search α) (f : α → Search β) :
    l.outcome (s >>= f) = (l.outcome s).bind fun a => l.outcome (f a) := by
  have split : l.outcome (s >>= f) = (l.oracle.consult (ExceptT.bindCont f
      (l.oracle.consult s.run []).1) (l.oracle.consult s.run []).2).1 :=
    congrArg Prod.fst (l.oracle.consult_bind s.run (ExceptT.bindCont f) [])
  rw [split, l.consult_fst _ _ []]
  unfold outcome
  cases (l.oracle.consult s.run []).1 with
  | ok a => rfl
  | error e => rfl

end Listing

namespace World

theorem serve_congr (c : Disk.Call) {w v : World} (h : w.files = v.files) :
    (w.serve c).1 = (v.serve c).1 ∧ (w.serve c).2.files = (v.serve c).2.files := by
  cases c with
  | read p => exact ⟨congrArg (fun fs => fs.read p) h, h⟩
  | isDirectory p => exact ⟨congrArg (fun fs => fs.isDirectory p) h, h⟩
  | isPresent p => exact ⟨congrArg (fun fs => fs.isPresent p) h, h⟩
  | fileNames p => exact ⟨congrArg (fun fs => fs.fileNames p) h, h⟩
  | makeDirectories p =>
      exact ⟨congrArg (fun fs => (fs.makeDirectories p).1) h,
        congrArg (fun fs => (fs.makeDirectories p).2) h⟩
  | write p content =>
      simp only [serve, h]
      cases v.files.write p content with
      | ok files => exact ⟨rfl, rfl⟩
      | error e => exact ⟨rfl, h⟩
  | note n => exact ⟨rfl, h⟩

theorem run_congr (p : DiskProgram α) {w v : World} (h : w.files = v.files) :
    (run p w).1 = (run p v).1 ∧ (run p w).2.files = (run p v).2.files := by
  induction p generalizing w v with
  | done a => exact ⟨rfl, h⟩
  | call c next ih =>
      obtain ⟨reply, files⟩ := serve_congr c h
      simp only [run, reply]
      exact ih _ files

end World

namespace Source

def outcome (source : Source) (s : Search α) (w : World) : Except RoleFailure α :=
  (World.run (source.consult s.run) w).1.1

theorem run_carryOut_ask (c : Criterion) (next : Answer → Consultation α) (source : Source)
    (w : World) :
    World.run (carryOut (.call (.ask c) next) source) w =
      World.run (carryOut (next (World.run (source.answer c) w).1.1)
        (World.run (source.answer c) w).1.2) (World.run (source.answer c) w).2 :=
  World.run_bind _ _ _

theorem run_carryOut_bind (i : Consultation α) (f : α → Consultation β) (source : Source)
    (w : World) :
    World.run (carryOut (i >>= f) source) w =
      World.run (carryOut (f (World.run (carryOut i source) w).1.1)
        (World.run (carryOut i source) w).1.2) (World.run (carryOut i source) w).2 := by
  induction i generalizing source w with
  | done a => rfl
  | call c next ih =>
      cases c with
      | ask c =>
          have whole := run_carryOut_ask c (fun r => next r >>= f) source w
          have first := run_carryOut_ask c next source w
          rw [first]
          exact whole.trans (ih _ _ _)
      | note n => exact ih _ _ _

theorem carryOut_listing (l : Listing) (i : Consultation α) (t : Transcript) (w : World) :
    (World.run (carryOut i (.listing l)) w).1 = ((l.oracle.consult i t).1, .listing l) := by
  induction i generalizing t w with
  | done a => rfl
  | call c next ih =>
      cases c with
      | ask c => exact ih _ _ _
      | note n => exact ih _ _ _

theorem outcome_listing (l : Listing) (s : Search α) (w : World) :
    (listing l).outcome s w = l.outcome s :=
  congrArg Prod.fst (carryOut_listing l s.run [] w)

theorem outcome_congr (source : Source) (s : Search α) {w v : World} (h : w.files = v.files) :
    source.outcome s w = source.outcome s v :=
  congrArg Prod.fst (World.run_congr (source.consult s.run) h).1

end Source

namespace Search

def Prompt : Consultation (Except RoleFailure α) → Prop
  | .done _ => True
  | .call (.ask _) next =>
      (∀ f, next (.error f) = .done (.error (.query f))) ∧ ∀ ms, Prompt (next (.ok ms))
  | .call (.note _) next => Prompt (next ())

theorem Prompt.bind {s : Search α} {f : α → Search β} (hs : Prompt s.run)
    (hf : ∀ a, Prompt (f a).run) : Prompt (s >>= f).run := by
  change Prompt ((ExceptT.run s).bind (ExceptT.bindCont f))
  generalize ExceptT.run s = i at hs
  induction i with
  | done r =>
      cases r with
      | ok a => exact hf a
      | error e => trivial
  | call c next ih =>
      cases c with
      | ask c =>
          refine ⟨fun e => ?_, fun ms => ih _ (hs.2 ms)⟩
          change (next (.error e)).bind (ExceptT.bindCont f) = _
          rw [hs.1 e]
          rfl
      | note n => exact ih _ hs

theorem prompt_ask (c : Criterion) : Prompt (ask c).run :=
  ⟨fun _ => rfl, fun _ => trivial⟩

theorem prompt_first? (c : Criterion) : Prompt (first? c).run := by
  refine (prompt_ask c).bind fun found => ?_
  cases found with
  | nil => trivial
  | cons m rest => trivial

theorem prompt_issuer : Prompt issuer.run := by
  change Prompt (first? .issuing >>= _ : Search Member).run
  refine (prompt_first? .issuing).bind fun found => ?_
  cases found with
  | none => trivial
  | some m => trivial

theorem prompt_endEntityOrIssuer (us : List Usage) : Prompt (endEntityOrIssuer us).run := by
  induction us with
  | nil => exact prompt_issuer
  | cons u us ih =>
      refine Prompt.bind (prompt_first? (.endEntityFor u)) fun found => ?_
      cases found with
      | none => exact ih
      | some m => trivial

theorem prompt_noteMembers (k : Nat) (ms : List Member) : Prompt (noteMembers k ms).run := by
  induction ms generalizing k with
  | nil => trivial
  | cons m ms ih => exact ih (k + 1)

theorem prompt_inventory : Prompt inventory.run :=
  (prompt_ask .any).bind fun members => prompt_noteMembers 0 members

theorem prompt_settle (role : Role) {s : Search Member} (hs : Prompt s.run) :
    Prompt (settle role s).run :=
  Prompt.bind (s := note _) trivial fun _ => Prompt.bind hs fun _ => trivial

theorem prompt_assignment : Prompt assignment.run :=
  prompt_inventory.bind fun _ =>
    (prompt_settle .recipient (prompt_endEntityOrIssuer _)).bind fun _ =>
      (prompt_settle .signer (prompt_endEntityOrIssuer _)).bind fun _ =>
        (prompt_settle .issuer prompt_issuer).bind fun _ => trivial

end Search

namespace Scripted

def run : Consultation α → Scripted → α × Scripted
  | .done a, s => (a, s)
  | .call (.ask c) next, s => run (next (s.answer c).1) (s.answer c).2
  | .call (.note _) next, s => run (next ()) s

theorem carryOut_scripted (s : Scripted) (i : Consultation α) (w : World) :
    (World.run (Source.carryOut i (.scripted s)) w).1 = ((s.run i).1, .scripted (s.run i).2) := by
  induction i generalizing s w with
  | done a => rfl
  | call c next ih =>
      cases c with
      | ask c => exact ih _ _ _
      | note n => exact ih _ _ _

theorem answer_eq_or (s : Scripted) (c : Criterion) :
    (s.answer c).1 = .error s.failure ∨ (s.answer c).1 = s.oracle s.asked c := by
  unfold answer present
  cases s.failsFrom with
  | none => exact .inr rfl
  | some n =>
      simp only [Oracle.failingFrom]
      split
      · exact .inl rfl
      · exact .inr rfl

theorem outcome_of_run {s : Scripted} {l : Listing} (h : s.oracle = l.oracle)
    {search : Search α} (hp : Search.Prompt search.run) {a : α}
    (ha : (s.run search.run).1 = .ok a) : l.outcome search = .ok a := by
  unfold Listing.outcome
  generalize ExceptT.run search = i at hp ha
  generalize ([] : Transcript) = t
  induction i generalizing s t with
  | done r => exact ha
  | call c next ih =>
      cases c with
      | ask c =>
          change (run (next (s.answer c).1) (s.answer c).2).1 = .ok a at ha
          -- a failed answer would have ended the search
          rcases s.answer_eq_or c with failed | answered
          · rw [failed, hp.1] at ha
            cases ha
          · rw [h] at answered
            rw [answered] at ha
            exact @ih _ (s.answer c).2 h (hp.2 _) ha _
      | note n => exact ih _ h hp ha _

end Scripted

end TrustRoles
