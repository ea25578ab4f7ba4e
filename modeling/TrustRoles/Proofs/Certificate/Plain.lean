import TrustRoles.Certificate.Bundle
import TrustRoles.Proofs.Files.OnDisk
import TrustRoles.Proofs.Text.Lines

namespace TrustRoles

open Text (Plain)

namespace Der

theorem Oid.plain_text (o : Oid) : Plain o.text.toList := by
  refine Text.plain_intercalate_string (by decide) fun t among => ?_
  obtain ⟨arc, -, rfl⟩ := List.mem_map.mp among
  exact Text.plain_toString arc

end Der

namespace Attribute

theorem plain_name [AttributeNames] {o : Der.Oid} {name : String}
    (h : AttributeNames.name? o = some name) : Plain name.toList := by
  have visible := List.all_eq_true.mp (AttributeNames.isVisible_name? o name h)
  refine Text.plain_iff.mpr fun c among => ?_
  have bounds : 32 < c.toNat ∧ c.toNat < 127 := by simpa using visible c among
  have plain : ¬ (c.toNat < 32 ∨ c.toNat = 127) := by omega
  simpa [Text.isControl] using plain

theorem plain_escapedChar (first last : Bool) (c : Char) : Plain (escapedChar first last c) := by
  unfold escapedChar
  split
  case isTrue hash =>
    subst hash
    cases first <;> decide
  split
  case isTrue space =>
    subst space
    cases first <;> cases last <;> decide
  split
  case isTrue special =>
    simp only [List.contains_eq_mem, List.mem_cons, List.not_mem_nil, or_false,
      decide_eq_true_eq] at special
    rcases special with rfl | rfl | rfl | rfl | rfl | rfl | rfl <;> decide
  split
  case isTrue control =>
    have high := Text.isControl_hexDigit (c.toNat / 16) (by omega)
    have low := Text.isControl_hexDigit (c.toNat % 16) (by omega)
    have mark : Text.isControl '\\' = false := by decide
    simp [Plain, high, low, mark]
  case isFalse visible =>
    have plain : Text.isControl c = false := by simpa [Text.isControl] using visible
    simp [Plain, plain]

theorem plain_escaped (s : String) : Plain (escaped s).toList := by
  have from' (first : Bool) (cs : List Char) : Plain (escapedFrom first cs) := by
    induction cs generalizing first with
    | nil => exact (rfl : Plain [])
    | cons c cs ih => exact (plain_escapedChar first cs.isEmpty c).append (ih false)
  rw [escaped, String.toList_ofList]
  exact from' true s.toList

theorem plain_text [AttributeNames] (a : Attribute) : Plain a.text.toList := by
  unfold text
  split
  · rename_i name value named _
    exact Text.plain_append_string (Text.plain_append_string (plain_name named) (by decide))
      (plain_escaped value)
  · refine Text.plain_append_string
      (Text.plain_append_string (Der.Oid.plain_text a.kind) (by decide)) ?_
    rw [String.toList_ofList]
    exact Text.plain_hexBytes _

end Attribute

theorem DistinguishedName.plain_text [AttributeNames] (n : DistinguishedName) :
    Plain n.text.toList := by
  refine Text.plain_intercalate_string (by decide) fun part among => ?_
  obtain ⟨attributes, -, rfl⟩ := List.mem_map.mp among
  refine Text.plain_intercalate_string (by decide) fun written among => ?_
  obtain ⟨a, -, rfl⟩ := List.mem_map.mp among
  exact a.plain_text

namespace Profile

structure Presentable (p : Profile) : Prop where
  subject : Plain p.subject.toList
  issuer : Plain p.issuer.toList
  serialNumber : Plain p.serialNumber.toList

theorem presentable_of_ofCertificate [AttributeNames] {c : Certificate} {p : Profile}
    (h : ofCertificate c = .ok p) : p.Presentable := by
  rw [ofCertificate] at h
  split at h
  · cases h
  · obtain rfl := Except.ok.inj h
    refine ⟨c.subject.plain_text, c.issuer.plain_text, ?_⟩
    rw [String.toList_ofList]
    exact Text.plain_hexBytes c.serialNumber

theorem presentable_of_mapM [AttributeNames] {cs : List Certificate} {ps : List Profile}
    (h : cs.mapM ofCertificate = .ok ps) : ∀ p ∈ ps, p.Presentable := by
  induction cs generalizing ps with
  | nil =>
      cases h
      exact List.forall_mem_nil _
  | cons c cs ih =>
      rw [List.mapM_cons] at h
      obtain ⟨p, first, rest⟩ := FileSource.bind_eq_ok.mp h
      obtain ⟨qs, later, same⟩ := FileSource.bind_eq_ok.mp rest
      obtain rfl := Except.ok.inj same
      exact List.forall_mem_cons.mpr ⟨presentable_of_ofCertificate first, ih later⟩

theorem presentable_of_profiles [AttributeNames] {bs : List UInt8} {ps : List Profile}
    (h : Bundle.profiles bs = .ok ps) : ∀ p ∈ ps, p.Presentable := by
  rw [Bundle.profiles] at h
  split at h
  · cases h
  · cases h
  · exact presentable_of_mapM h

end Profile

namespace FileSource

theorem presentable_of_parse {p : Path} {content : Except FileError (List UInt8)}
    {ps : List Profile} (h : parse p content = .ok ps) : ∀ q ∈ ps, q.Presentable := by
  cases content with
  | error e => cases h
  | ok bytes =>
      rw [parse] at h
      cases read : Bundle.profiles bytes with
      | error f =>
          rw [read] at h
          cases h
      | ok qs =>
          rw [read] at h
          cases h
          exact Profile.presentable_of_profiles read

theorem presentable_of_onDisk {s : FileSource} {files : FileSystem} {members : List Member}
    (h : s.onDisk files = .ok members) : ∀ m ∈ members, m.profile.Presentable := by
  obtain ⟨paths, -, rest⟩ := bind_eq_ok.mp h
  obtain ⟨profiles, read, rfl⟩ := map_eq_ok.mp rest
  intro m among
  obtain ⟨k, inside, rfl⟩ := List.mem_mapIdx.mp among
  obtain ⟨p, -, found, parsed, held⟩ := mem_of_gather read _ (List.getElem_mem inside)
  exact presentable_of_parse parsed _ held

end FileSource

end TrustRoles
