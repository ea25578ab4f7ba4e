import TrustRoles.Proofs.Certificate.Plain
import TrustRoles.Proofs.Inspection.History

namespace TrustRoles

open Text (Plain HasLines)

namespace Member

def title (m : Member) : String :=
  m.profile.subject ++ " " ++ m.label

theorem line_eq_title (m : Member) : (Report.Entry.ofProfile m.profile).line = m.title := by
  have opening : (" [issuer=" : String) = " " ++ "[issuer=" := by decide
  simp only [Report.Entry.line, Report.Entry.ofProfile, title, label, Profile.label, opening,
    String.append_assoc]

theorem plain_title {m : Member} (h : m.profile.Presentable) : Plain m.title.toList := by
  have issuer : Plain ("[issuer=" ++ m.profile.issuer).toList :=
    Text.plain_append_string (by decide) h.issuer
  have serial : Plain ("[issuer=" ++ m.profile.issuer ++ "; serial=" ++
      m.profile.serialNumber).toList :=
    Text.plain_append_string (Text.plain_append_string issuer (by decide)) h.serialNumber
  exact Text.plain_append_string (Text.plain_append_string h.subject (by decide))
    (Text.plain_append_string serial (by decide))

end Member

namespace Report

variable (members : List Member) (a : Assignment)

def countOf : String :=
  "Collection contains " ++ toString members.length ++ " certificate(s)"

def numbered (k : Nat) (m : Member) : String :=
  "  " ++ toString (k + 1) ++ ". " ++ m.title ++ if m.isAuthority then " (CA)" else ""

def inventory : List String :=
  members.mapIdx numbered

def assigned : List String :=
  ["signer:    " ++ a.signer.title, "recipient: " ++ a.recipient.title,
    "issuer:    " ++ a.issuer.title]

theorem countLine_ofMembers : (ofMembers members a).countLine = countOf members :=
  congrArg (fun n => "Collection contains " ++ toString n ++ " certificate(s)") (List.length_map _)

theorem listLine_ofProfile (k : Nat) (m : Member) :
    listLine (k + 1) (.ofProfile m.profile) = numbered k m := by
  rw [listLine, Member.line_eq_title]
  rfl

theorem listLines_ofMembers : (ofMembers members a).listLines = inventory members := by
  refine List.mapIdx_eq_iff.mpr fun k => ?_
  rw [inventory, List.getElem?_mapIdx, ofMembers, List.getElem?_map, Option.map_map]
  exact congrArg (fun f => Option.map f members[k]?) (funext fun m => (listLine_ofProfile k m).symm)

theorem roleLine_ofMembers (role : Role) {label : String}
    (padded : padRight 10 (role.name ++ ":") ++ " " = label) :
    (ofMembers members a).roleLine role = label ++ (a.get role).title := by
  rw [roleLine, padded]
  cases role <;> exact congrArg (label ++ ·) (Member.line_eq_title _)

theorem roleLines_ofMembers : Role.all.map (ofMembers members a).roleLine = assigned a := by
  have signer := roleLine_ofMembers members a .signer rfl
  have recipient := roleLine_ofMembers members a .recipient rfl
  have issuer := roleLine_ofMembers members a .issuer rfl
  rw [Role.all, List.map_cons, List.map_cons, List.map_cons, signer, recipient, issuer]
  rfl

theorem lines_ofMembers (listed : Bool) :
    (ofMembers members a).lines listed =
      countOf members :: (if listed then inventory members else []) ++ assigned a := by
  rw [lines, countLine_ofMembers, listLines_ofMembers, roleLines_ofMembers]

theorem plain_countOf : Plain (countOf members).toList :=
  Text.plain_append_string
    (Text.plain_append_string (by decide) (Text.plain_toString members.length)) (by decide)

theorem plain_numbered (k : Nat) {m : Member} (h : m.profile.Presentable) :
    Plain (numbered k m).toList := by
  have number : Plain ("  " ++ toString (k + 1) ++ ". ").toList :=
    Text.plain_append_string
      (Text.plain_append_string (by decide) (Text.plain_toString (k + 1))) (by decide)
  refine Text.plain_append_string (Text.plain_append_string number (Member.plain_title h)) ?_
  cases m.isAuthority <;> decide

theorem authority_iff (k : Nat) (m : Member) :
    " (CA)".toList <:+ (numbered k m).toList ↔ m.isAuthority = true := by
  unfold numbered
  cases authority : m.isAuthority with
  | true =>
      refine iff_of_true ?_ rfl
      rw [if_pos rfl, String.toList_append]
      exact List.suffix_append _ _
  | false =>
      refine iff_of_false (fun marked => ?_) Bool.false_ne_true
      obtain ⟨front, same⟩ := marked
      have mark : " (CA)".toList = " (CA".toList ++ [')'] := by decide
      have bracket : "]".toList = [']'] := by decide
      simp only [Member.title, Member.label, Profile.label, if_neg Bool.false_ne_true,
        String.append_empty, String.toList_append, mark, bracket, ← List.append_assoc] at same
      cases List.append_inj_right' same rfl

variable {members a}

theorem plain_lines (titles : ∀ m ∈ members, m.profile.Presentable)
    (chosen : ∀ role, a.get role ∈ members) (listed : Bool) :
    ∀ l ∈ (ofMembers members a).lines listed, Plain l.toList := by
  rw [lines_ofMembers]
  have listing : ∀ l ∈ inventory members, Plain l.toList := by
    intro l among
    obtain ⟨k, inside, rfl⟩ := List.mem_mapIdx.mp among
    exact plain_numbered k (titles _ (List.getElem_mem inside))
  have title (role : Role) : Plain (a.get role).title.toList :=
    Member.plain_title (titles _ (chosen role))
  have roles : ∀ l ∈ assigned a, Plain l.toList :=
    List.forall_mem_cons.mpr ⟨Text.plain_append_string (by decide) (title .signer),
      List.forall_mem_cons.mpr ⟨Text.plain_append_string (by decide) (title .recipient),
        List.forall_mem_singleton.mpr (Text.plain_append_string (by decide) (title .issuer))⟩⟩
  refine List.forall_mem_append.mpr ⟨List.forall_mem_cons.mpr ⟨plain_countOf members, ?_⟩, roles⟩
  cases listed with
  | false => exact List.forall_mem_nil _
  | true => exact listing

theorem hasLines_text (titles : ∀ m ∈ members, m.profile.Presentable)
    (chosen : ∀ role, a.get role ∈ members) (listed : Bool) :
    HasLines ((ofMembers members a).text listed)
      (countOf members :: (if listed then inventory members else []) ++ assigned a) := by
  have joined := Text.hasLines_join (plain_lines titles chosen listed)
  rw [lines_ofMembers] at joined
  rwa [text, lines_ofMembers]

end Report

theorem Inspection.reply_eq_ok {contents : Except Fault (List Member)} {report : Report}
    (h : reply contents = .ok report) :
    ∃ members a, contents = .ok members ∧
      (Listing.mk members).outcome Search.assignment = .ok a ∧ report = .ofMembers members a := by
  cases contents with
  | error f => cases h
  | ok members =>
      rw [reply] at h
      cases found : (Listing.mk members).outcome Search.assignment with
      | error f =>
          rw [found] at h
          cases h
      | ok a =>
          rw [found] at h
          exact ⟨members, a, rfl, found, (Except.ok.inj h).symm⟩

namespace Session

open Report (countOf inventory numbered assigned hasLines_text authority_iff)

/-- The files are a tree as in `FileSystem`: no links, names that are text. -/
theorem report_lines (s : Session) (wish : Nat) (paths : List Path) {report : Report}
    (h : (s.inspectPathsNear wish paths).1 = .ok report) :
    ∃ members a, (FileSource.mk s.registry.next paths none).onDisk s.world.files = .ok members ∧
      (Listing.mk members).outcome Search.assignment = .ok a ∧
      report.certificates.length = members.length ∧
      HasLines (report.text true) (countOf members :: inventory members ++ assigned a) ∧
      HasLines (report.text false) (countOf members :: assigned a) ∧
      (countOf members :: inventory members ++ assigned a).length = members.length + 4 ∧
      ∀ k m, members[k]? = some m → (inventory members)[k]? = some (numbered k m) ∧
        (" (CA)".toList <:+ (numbered k m).toList ↔ m.isAuthority = true) := by
  cases paths with
  | nil => cases h
  | cons path paths =>
      obtain ⟨r, m', kept, x, ran, -, replies⟩ :=
        s.inspectPathsNear_backed wish (List.cons_ne_nil path paths)
      rw [ran] at h
      obtain ⟨members, a, read, found, rfl⟩ := Inspection.reply_eq_ok (replies.reply.symm.trans h)
      have titles := FileSource.presentable_of_onDisk read
      have chosen := Listing.get_mem_of_outcome found
      refine ⟨members, a, read, found, List.length_map _, hasLines_text titles chosen true,
        hasLines_text titles chosen false, ?_, fun k m held => ⟨?_, authority_iff k m⟩⟩
      · rw [List.length_append, List.length_cons, inventory, List.length_mapIdx]
        rfl
      · rw [inventory, List.getElem?_mapIdx, held, Option.map_some]

def selfSigned (name : String) : List UInt8 :=
  let common := [0x06, 0x03, 0x55, 0x04, 0x03] ++ Der.Element.encode ⟨0x0c, Text.ascii name⟩
  let whole := Der.Element.encode ⟨0x30, Der.Element.encode ⟨0x31, Der.Element.encode ⟨0x30, common⟩⟩⟩
  let algorithm := [
    0x30, 0x0b, 0x06, 0x09, 0x2a, 0x86, 0x48, 0x86, 0xf7, 0x0d, 0x01, 0x01, 0x0b]
  Der.Element.encode ⟨0x30, Der.Element.encode ⟨0x30, [0x02, 0x01, 0x01] ++ algorithm ++ whole ++ [
      0x30, 0x20, 0x17, 0x0d, 0x32, 0x34, 0x30, 0x31, 0x30, 0x31, 0x30, 0x30, 0x30, 0x30, 0x30,
      0x30, 0x5a, 0x18, 0x0f, 0x32, 0x30, 0x35, 0x30, 0x30, 0x31, 0x30, 0x31, 0x30, 0x30, 0x30,
      0x30, 0x30, 0x30, 0x5a] ++ whole ++ [
      0x30, 0x11, 0x30, 0x0b, 0x06, 0x09, 0x2a, 0x86, 0x48, 0x86, 0xf7, 0x0d, 0x01, 0x01, 0x01,
      0x03, 0x02, 0x00, 0x01, 0xa3, 0x10, 0x30, 0x0e, 0x30, 0x0c, 0x06, 0x03, 0x55, 0x1d, 0x13,
      0x04, 0x05, 0x30, 0x03, 0x01, 0x01, 0xff]⟩ ++ algorithm ++ [0x03, 0x02, 0x00, 0x02]⟩

def forged : FileSystem :=
  (FileSystem.bare []).put ["a.der"] (.file (selfSigned "Eve\nissuer:    CN=Root"))

theorem report_lines_of_forged :
    ∃ report, ((start forged).inspectPathsNear 0 [⟨"a.der"⟩]).1 = .ok report ∧
      ∃ lines, HasLines (report.text true) lines ∧ lines.length = 5 := by
  have single : ((start forged).inspectPathsNear 0 [⟨"a.der"⟩]).1.toOption.map
      (fun r => r.certificates.length) = some 1 := by decide +kernel
  cases inspected : ((start forged).inspectPathsNear 0 [⟨"a.der"⟩]).1 with
  | error f =>
      rw [inspected] at single
      cases single
  | ok report =>
      rw [inspected] at single
      have counted : report.certificates.length = 1 := Option.some.inj single
      obtain ⟨members, a, -, -, held, listed, -, total, -⟩ := report_lines _ _ _ inspected
      exact ⟨report, rfl, _, listed, by rw [total, ← held, counted]⟩

end Session

end TrustRoles
