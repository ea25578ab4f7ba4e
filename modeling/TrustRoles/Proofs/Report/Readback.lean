import TrustRoles.Proofs.Json.Reader
import TrustRoles.Report

namespace TrustRoles

namespace Json

def field? (k : String) : Json → Option Json
  | record fs => fs.lookup k
  | _ => none

def toText? : Json → Option String
  | text s => some s
  | _ => none

def toBoolean? : Json → Option Bool
  | boolean b => some b
  | _ => none

def toOctet? : Json → Option UInt8
  | number n => if n < 256 then some (UInt8.ofNat n) else none
  | _ => none

section

variable {α : Type}

def toList? (read : Json → Option α) : Json → Option (List α)
  | list vs => vs.mapM read
  | _ => none

def toNullable? (read : Json → Option α) : Json → Option (Option α)
  | null => some none
  | v => (read v).map some

variable {read : Json → Option α} {write : α → Json}

theorem toList?_map (inverse : ∀ a, read (write a) = some a) (as : List α) :
    (list (as.map write)).toList? read = some as := by
  rw [toList?, List.mapM_map]
  induction as with
  | nil => rfl
  | cons a as ih => rw [List.mapM_cons, Function.comp_apply, inverse, ih]; rfl

end

theorem toOctet?_number (n : UInt8) : (number n.toNat).toOctet? = some n := by
  rw [toOctet?, if_pos n.toNat_lt, UInt8.ofNat_toNat]

end Json

namespace Report

open Json

namespace Entry

def usage? (v : Json) : Option Usage :=
  v.toText?.bind Usage.ofName?

def ofJson? (j : Json) : Option Entry := do
  let subject ← (j.field? "subject").bind toText?
  let issuer ← (j.field? "issuer").bind toText?
  let serialNumber ← (j.field? "serial_number").bind toText?
  let isAuthority ← (j.field? "is_ca").bind toBoolean?
  let pathLength ← (j.field? "path_len").mapM toOctet?
  let keyUsage ← (j.field? "key_usage").bind (toNullable? (toList? usage?))
  some ⟨subject, issuer, serialNumber, isAuthority, pathLength, keyUsage⟩

theorem usage?_name (u : Usage) : usage? (.text u.name) = some u :=
  Usage.ofName?_name u

theorem field?_pathLength (e : Entry) :
    e.toJson.field? "path_len" = e.pathLength.map fun n => .number n.toNat := by
  rcases e with ⟨_, _, _, _, _ | n, _⟩ <;> rfl

theorem field?_keyUsage (e : Entry) : e.toJson.field? "key_usage" =
    some ((e.keyUsage.map fun us => .list (us.map fun u => .text u.name)).getD .null) := by
  rcases e with ⟨_, _, _, _, _ | n, _ | us⟩ <;> rfl

theorem field?_pathLength_eq_none_iff (e : Entry) :
    e.toJson.field? "path_len" = none ↔ e.pathLength = none := by
  rw [field?_pathLength, Option.map_eq_none_iff]

theorem field?_keyUsage_eq_null_iff (e : Entry) :
    e.toJson.field? "key_usage" = some .null ↔ e.keyUsage = none := by
  rw [field?_keyUsage]
  cases e.keyUsage <;> simp

theorem field?_keyUsage_eq_empty_iff (e : Entry) :
    e.toJson.field? "key_usage" = some (.list []) ↔ e.keyUsage = some [] := by
  rw [field?_keyUsage]
  cases e.keyUsage <;> simp

theorem mapM_toOctet? (pathLength : Option UInt8) :
    (pathLength.map fun n => Json.number n.toNat).mapM toOctet? = some pathLength := by
  cases pathLength with
  | none => rfl
  | some n => simp [toOctet?_number]

theorem toNullable?_usages (keyUsage : Option (List Usage)) :
    toNullable? (toList? usage?) ((keyUsage.map fun us =>
      .list (us.map fun u => .text u.name)).getD .null) = some keyUsage := by
  cases keyUsage with
  | none => rfl
  | some us => exact congrArg (Option.map some) (toList?_map usage?_name us)

theorem ofJson?_toJson (e : Entry) : ofJson? e.toJson = some e := by
  have subject : e.toJson.field? "subject" = some (.text e.subject) := rfl
  have issuer : e.toJson.field? "issuer" = some (.text e.issuer) := rfl
  have serialNumber : e.toJson.field? "serial_number" = some (.text e.serialNumber) := rfl
  have isAuthority : e.toJson.field? "is_ca" = some (.boolean e.isAuthority) := rfl
  simp [ofJson?, subject, issuer, serialNumber, isAuthority, field?_pathLength, field?_keyUsage,
    toText?, toBoolean?, mapM_toOctet?, toNullable?_usages]

end Entry

def Roles.ofJson? (j : Json) : Option Roles := do
  let signer ← (j.field? "signer").bind Entry.ofJson?
  let recipient ← (j.field? "recipient").bind Entry.ofJson?
  let issuer ← (j.field? "issuer").bind Entry.ofJson?
  some ⟨signer, recipient, issuer⟩

theorem Roles.ofJson?_toJson (r : Roles) : Roles.ofJson? r.toJson = some r := by
  have signer : r.toJson.field? "signer" = some r.signer.toJson := rfl
  have recipient : r.toJson.field? "recipient" = some r.recipient.toJson := rfl
  have issuer : r.toJson.field? "issuer" = some r.issuer.toJson := rfl
  simp [Roles.ofJson?, signer, recipient, issuer, Entry.ofJson?_toJson]

def ofJson? (j : Json) : Option Report := do
  let certificates ← (j.field? "certificates").bind (toList? Entry.ofJson?)
  let roles ← (j.field? "roles").bind Roles.ofJson?
  some ⟨certificates, roles⟩

theorem ofJson?_toJson (r : Report) : ofJson? r.toJson = some r := by
  have certificates : r.toJson.field? "certificates" =
      some (.list (r.certificates.map Entry.toJson)) := rfl
  have roles : r.toJson.field? "roles" = some r.roles.toJson := rfl
  simp [ofJson?, certificates, roles, toList?_map Entry.ofJson?_toJson, Roles.ofJson?_toJson]

def ofText? (s : String) : Option Report :=
  (Json.ofText? s).bind ofJson?

theorem ofText?_pretty (r : Report) : ofText? r.toJson.pretty = some r := by
  rw [ofText?, Json.ofText?_pretty, Option.bind_some, ofJson?_toJson]

theorem legible (r : Report) :
    IsText r.toJson.pretty r.toJson ∧ (∀ j, IsText r.toJson.pretty j → ofJson? j = some r) ∧
      ofText? r.toJson.pretty = some r ∧
      (∀ s : Report, s.toJson.pretty = r.toJson.pretty → s = r) ∧
      ∀ e : Entry,
        (e.toJson.field? "path_len" = none ↔ e.pathLength = none) ∧
        (e.toJson.field? "key_usage" = some .null ↔ e.keyUsage = none) ∧
        (e.toJson.field? "key_usage" = some (.list []) ↔ e.keyUsage = some []) := by
  have written := isText_pretty r.toJson
  refine ⟨written, fun j read => ?_, ofText?_pretty r, fun s same => ?_, fun e => ⟨?_, ?_, ?_⟩⟩
  · rw [read.unique written, ofJson?_toJson]
  · have equal := ofText?_pretty s
    rw [same, ofText?_pretty] at equal
    exact (Option.some.inj equal).symm
  · exact e.field?_pathLength_eq_none_iff
  · exact e.field?_keyUsage_eq_null_iff
  · exact e.field?_keyUsage_eq_empty_iff

end Report

end TrustRoles
