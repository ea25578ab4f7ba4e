import TrustRoles.Certificate.Bundle
import TrustRoles.Proofs.Certificate.Fields
import TrustRoles.Proofs.Certificate.Rights
import TrustRoles.Proofs.Encoding.Pem

namespace TrustRoles

open Der

namespace Profile

variable [AttributeNames]

theorem mapM_ofCertificate_of_malformed {cs : List Certificate} {e : Extension}
    (h : cs.findSome? Certificate.malformed? = some e) :
    cs.mapM ofCertificate = .error (.encoding e.defect) := by
  induction cs with
  | nil => cases h
  | cons c cs ih =>
      rw [List.findSome?_cons] at h
      rw [List.mapM_cons]
      cases malformed : c.malformed? with
      | some d =>
          rw [malformed] at h
          obtain rfl := Option.some.inj h
          rw [ofCertificate_of_malformed malformed]
          rfl
      | none =>
          rw [malformed] at h
          obtain ⟨p, made, -⟩ :=
            ofCertificate_of_formed (Certificate.malformed?_eq_none_iff.mp malformed)
          rw [made, ih h]
          rfl

theorem ofDer_eq_ok {bs : List UInt8} {p : Profile} :
    ofDer bs = .ok p ↔ ∃ c, Certificate.ofDer? bs = some c ∧ ofCertificate c = .ok p := by
  unfold ofDer
  cases Certificate.ofDer? bs <;> simp

end Profile

namespace Certificate

variable {bs : List UInt8} {c : Certificate}

theorem exists_cons_of_ofDer? (h : ofDer? bs = some c) : ∃ rest, bs = 0x30 :: rest := by
  obtain ⟨whole, _, _, outer, -⟩ := read_eq_some.mp (ofDer?_eq_some.mp h)
  cases bs with
  | nil => cases outer
  | cons b rest =>
      obtain rfl : (0x30 : UInt8) = b := (element?_cons outer).1
      exact ⟨rest, rfl⟩

end Certificate

namespace Bundle

open Certificate (InOrder)

theorem mapM_ofBlock? (blocks : List (List UInt8)) :
    blocks.mapM ofBlock? = (blocks.map Pem.decode?).mapM (·.bind Certificate.atFront?) :=
  (List.mapM_map (f := Pem.decode?) (g := fun b => b.bind Certificate.atFront?)).symm

theorem certificates?_encodings {ds : List (List UInt8)} (some' : ds ≠ [])
    (written : ∀ d ∈ ds, d ≠ []) :
    certificates? (ds.flatMap Pem.encode) = ds.mapM Certificate.atFront? := by
  obtain ⟨d, rest, rfl⟩ := List.exists_cons_of_ne_nil some'
  have split : certificates? ((d :: rest).flatMap Pem.encode) =
      (Pem.split? (Pem.pieces d rest).flatten).bind fun blocks => blocks.mapM ofBlock? := by
    rw [certificates?, Pem.armor?_bundle]
    rfl
  rw [split, Pem.split?_pieces written, Option.bind_some, mapM_ofBlock?,
    Pem.map_decode?_pieces written, List.mapM_map]
  rfl

theorem certificates?_der {bs : List UInt8} {c : Certificate} (h : Certificate.ofDer? bs = some c) :
    certificates? bs = some [c] := by
  obtain ⟨rest, rfl⟩ := Certificate.exists_cons_of_ofDer? h
  rw [certificates?, Pem.armor?_eq_none (by decide) (by decide), h]
  rfl

theorem mapM_atFront?_eq_none {ds : List (List UInt8)} {d : List UInt8} (among : d ∈ ds)
    (h : Certificate.atFront? d = none) : ds.mapM Certificate.atFront? = none := by
  induction ds with
  | nil => cases among
  | cons d' ds ih =>
      rw [List.mapM_cons]
      rcases List.mem_cons.mp among with rfl | later
      · rw [h]
        rfl
      · rw [ih later]
        cases Certificate.atFront? d' <;> rfl

section

variable [AttributeNames]

theorem profiles_of_certificates? {bs : List UInt8} {cs : List Certificate}
    (h : certificates? bs = some cs) (some' : cs ≠ []) :
    profiles bs = cs.mapM Profile.ofCertificate := by
  obtain ⟨c, rest, rfl⟩ := List.exists_cons_of_ne_nil some'
  rw [profiles, h]

theorem profiles_ne_nil (bs : List UInt8) : profiles bs ≠ .ok [] := by
  unfold profiles
  split
  · exact fun h => by cases h
  · exact fun h => by cases h
  · rename_i cs nonempty _
    cases cs with
    | nil => exact absurd rfl nonempty
    | cons c cs =>
        rw [List.mapM_cons]
        cases Profile.ofCertificate c with
        | error f => exact fun h => by cases h
        | ok p => cases cs.mapM Profile.ofCertificate <;> exact fun h => by cases h

theorem profiles_of_malformed {bs : List UInt8} {cs : List Certificate} {e : Extension}
    (h : certificates? bs = some cs) (malformed : cs.findSome? Certificate.malformed? = some e) :
    profiles bs = .error (.encoding e.defect) := by
  have some' : cs ≠ [] := by
    rintro rfl
    cases malformed
  rw [profiles_of_certificates? h some', Profile.mapM_ofCertificate_of_malformed malformed]

theorem ne_nil_of_ofDer {ds : List (List UInt8)} {ps : List Profile}
    (h : ds.map Profile.ofDer = ps.map .ok) : ∀ d ∈ ds, d ≠ [] := by
  rintro d among rfl
  have decoded := List.mem_map_of_mem (f := Profile.ofDer) among
  rw [h] at decoded
  obtain ⟨p, -, decoded⟩ := List.mem_map.mp decoded
  obtain ⟨c, read, -⟩ := Profile.ofDer_eq_ok.mp decoded.symm
  cases read

theorem exists_certificates_of_inOrder {ds : List (List UInt8)} {ps : List Profile}
    (h : ds.map Profile.ofDer = ps.map .ok) (ordered : ∀ d ∈ ds, InOrder d) :
    ∃ cs, ds.mapM Certificate.atFront? = some cs ∧ cs.mapM Profile.ofCertificate = .ok ps := by
  induction ds generalizing ps with
  | nil =>
      obtain rfl := List.map_eq_nil_iff.mp h.symm
      exact ⟨[], rfl, rfl⟩
  | cons d ds ih =>
      obtain ⟨p, ps, rfl⟩ : ∃ p qs, ps = p :: qs := by
        cases ps with
        | nil => cases h
        | cons p qs => exact ⟨p, qs, rfl⟩
      obtain ⟨first, rest⟩ := List.cons.inj h
      obtain ⟨c, read, made⟩ := Profile.ofDer_eq_ok.mp first
      obtain ⟨cs, reads, makes⟩ := ih rest fun d' among => ordered d' (List.mem_cons_of_mem _ among)
      have front := Certificate.atFront?_of_inOrder read (ordered d (List.mem_cons_self ..))
      refine ⟨c :: cs, ?_, ?_⟩
      · rw [List.mapM_cons, front, reads]
        rfl
      · rw [List.mapM_cons, made, makes]
        rfl

theorem profiles_of_inOrder {ds : List (List UInt8)} {ps : List Profile} (some' : ds ≠ [])
    (h : ds.map Profile.ofDer = ps.map .ok) (ordered : ∀ d ∈ ds, InOrder d) :
    profiles (ds.flatMap Pem.encode) = .ok ps := by
  obtain ⟨cs, reads, makes⟩ := exists_certificates_of_inOrder h ordered
  have read := (certificates?_encodings some' (ne_nil_of_ofDer h)).trans reads
  have nonempty : cs ≠ [] := by
    rintro rfl
    cases makes
    exact some' (List.map_eq_nil_iff.mp h)
  rw [profiles_of_certificates? read nonempty, makes]

theorem profiles_of_not_inOrder {ds : List (List UInt8)} {ps : List Profile}
    (h : ds.map Profile.ofDer = ps.map .ok) (disordered : ∃ d ∈ ds, ¬ InOrder d) :
    profiles (ds.flatMap Pem.encode) = .error (.encoding (defect (ds.flatMap Pem.encode))) := by
  obtain ⟨d, among, stray⟩ := disordered
  have decoded := List.mem_map_of_mem (f := Profile.ofDer) among
  rw [h] at decoded
  obtain ⟨p, -, decoded⟩ := List.mem_map.mp decoded
  obtain ⟨c, read, -⟩ := Profile.ofDer_eq_ok.mp decoded.symm
  have refused := mapM_atFront?_eq_none among (Certificate.atFront?_of_not_inOrder read stray)
  rw [profiles, certificates?_encodings (List.ne_nil_of_mem among) (ne_nil_of_ofDer h), refused]

theorem profiles_der {bs : List UInt8} {p : Profile} (h : Profile.ofDer bs = .ok p) :
    profiles bs = .ok [p] := by
  obtain ⟨c, read, made⟩ := Profile.ofDer_eq_ok.mp h
  rw [profiles_of_certificates? (certificates?_der read) (List.cons_ne_nil _ _), List.mapM_cons,
    made]
  rfl

theorem reading :
    (∀ ds ps, ds ≠ [] → ds.map Profile.ofDer = ps.map .ok →
      ((∀ d ∈ ds, InOrder d) → profiles (ds.flatMap Pem.encode) = .ok ps) ∧
      ((∃ d ∈ ds, ¬ InOrder d) →
        profiles (ds.flatMap Pem.encode) =
          .error (.encoding (defect (ds.flatMap Pem.encode))))) ∧
    (∀ d p, Profile.ofDer d = .ok p → profiles d = .ok [p]) ∧
    (∀ bs cs, certificates? bs = some cs → (∃ c ∈ cs, c.Malformed) →
      ∃ e, cs.findSome? Certificate.malformed? = some e ∧
        profiles bs = .error (.encoding e.defect)) ∧
    ∀ bs, profiles bs ≠ .ok [] := by
  refine ⟨fun ds ps some' decoded => ⟨fun ordered => ?_, fun disordered => ?_⟩,
    fun d p decoded => profiles_der decoded, fun bs cs read malformed => ?_, profiles_ne_nil⟩
  · exact profiles_of_inOrder some' decoded ordered
  · exact profiles_of_not_inOrder decoded disordered
  · obtain ⟨e, first⟩ := Certificate.exists_malformed_of_mem malformed
    exact ⟨e, first, profiles_of_malformed read first⟩

end

def leaf (fields : List UInt8) : List UInt8 :=
  Element.encode ⟨0x30, Element.encode ⟨0x30, [
      0x02, 0x01, 0x01, 0x30, 0x0b, 0x06, 0x09, 0x2a, 0x86, 0x48, 0x86, 0xf7, 0x0d, 0x01, 0x01,
      0x0b, 0x30, 0x0f, 0x31, 0x0d, 0x30, 0x0b, 0x06, 0x03, 0x55, 0x04, 0x03, 0x0c, 0x04, 0x52,
      0x6f, 0x6f, 0x74, 0x30, 0x20, 0x17, 0x0d, 0x32, 0x34, 0x30, 0x31, 0x30, 0x31, 0x30, 0x30,
      0x30, 0x30, 0x30, 0x30, 0x5a, 0x18, 0x0f, 0x32, 0x30, 0x35, 0x30, 0x30, 0x31, 0x30, 0x31,
      0x30, 0x30, 0x30, 0x30, 0x30, 0x30, 0x5a, 0x30, 0x0f, 0x31, 0x0d, 0x30, 0x0b, 0x06, 0x03,
      0x55, 0x04, 0x03, 0x0c, 0x04, 0x4c, 0x65, 0x61, 0x66, 0x30, 0x11, 0x30, 0x0b, 0x06, 0x09,
      0x2a, 0x86, 0x48, 0x86, 0xf7, 0x0d, 0x01, 0x01, 0x01, 0x03, 0x02, 0x00, 0x01] ++ fields⟩ ++ [
      0x30, 0x0b, 0x06, 0x09, 0x2a, 0x86, 0x48, 0x86, 0xf7, 0x0d, 0x01, 0x01, 0x0b, 0x03, 0x02,
      0x00, 0x02]⟩

def leafContent : Certificate :=
  ⟨[0x01], ⟨[[⟨⟨[0x55, 0x04, 0x03]⟩, ⟨0x0c, Text.ascii "Root"⟩⟩]]⟩,
    ⟨[[⟨⟨[0x55, 0x04, 0x03]⟩, ⟨0x0c, Text.ascii "Leaf"⟩⟩]]⟩, none⟩

def leafProfile : Profile :=
  ⟨leafContent.issuer.text, leafContent.subject.text, "01", .endEntity, none, none⟩

theorem ofDer_leaf {fields : List UInt8} (h : Certificate.ofDer? (leaf fields) = some leafContent) :
    Profile.ofDer (leaf fields) = .ok leafProfile :=
  Profile.ofDer_eq_ok.mpr ⟨leafContent, h, rfl⟩

theorem reading_of_two_leaves :
    profiles ([leaf [], leaf []].flatMap Pem.encode) = .ok [leafProfile, leafProfile] := by
  have read : Certificate.ofDer? (leaf []) = some leafContent := by decide +kernel
  have strict : Certificate.read false (leaf []) = some (leafContent, []) := by decide +kernel
  have ordered : InOrder (leaf []) := (Certificate.inOrder_iff read).mpr strict
  have decoded : [leaf [], leaf []].map Profile.ofDer = [leafProfile, leafProfile].map .ok := by
    rw [List.map_cons, List.map_cons, ofDer_leaf read]
    rfl
  refine (reading.1 [leaf [], leaf []] _ (List.cons_ne_nil _ _) decoded).1 ?_
  exact List.forall_mem_cons.mpr ⟨ordered, List.forall_mem_singleton.mpr ordered⟩

/-- A stray field is passed over in a single certificate and refused in a bundle. -/
theorem not_reading_of_stray_field :
    ¬ ∀ ds ps, ds ≠ [] → ds.map Profile.ofDer = ps.map .ok →
      profiles (ds.flatMap Pem.encode) = .ok ps := by
  intro claimed
  have read : Certificate.ofDer? (leaf [0x80, 0x00]) = some leafContent := by decide +kernel
  have stray : ¬ InOrder (leaf [0x80, 0x00]) := by
    have refused : Certificate.read false (leaf [0x80, 0x00]) = none := by decide +kernel
    rw [Certificate.inOrder_iff read, refused]
    exact fun h => by cases h
  have decoded : [leaf [0x80, 0x00]].map Profile.ofDer = [leafProfile].map .ok := by
    rw [List.map_cons, ofDer_leaf read]
    rfl
  have kept := claimed _ _ (List.cons_ne_nil _ _) decoded
  rw [profiles_of_not_inOrder decoded ⟨_, List.mem_singleton_self _, stray⟩] at kept
  cases kept

end Bundle

end TrustRoles
