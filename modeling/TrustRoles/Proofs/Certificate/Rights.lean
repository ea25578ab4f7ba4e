import Mathlib.Data.List.Nodup
import TrustRoles.Certificate.Profile
import TrustRoles.Proofs.Der.Reader
import TrustRoles.Proofs.KeyUsage

namespace TrustRoles

open Der

namespace Extension

def Malformed (e : Extension) : Prop :=
  e.kind = BasicConstraints.oid ∧ BasicConstraints.ofDer? e.payload = none ∨
    e.kind = KeyUsage.oid ∧ KeyUsage.ofDer? e.payload = none

instance (e : Extension) : Decidable e.Malformed :=
  inferInstanceAs (Decidable (_ ∧ _ ∨ _ ∧ _))

def defect (e : Extension) : Defect :=
  if e.kind = BasicConstraints.oid then .constraints e.payload else .keyUsage e.payload

def Counts (e : Extension) : Prop :=
  e.kind = BasicConstraints.oid ∨ e.kind = KeyUsage.oid

instance (e : Extension) : Decidable e.Counts :=
  inferInstanceAs (Decidable (_ ∨ _))

def last? (kind : Oid) (es : List Extension) : Option Extension :=
  es.reverse.find? fun e => e.kind = kind

def decoded? {α : Type} (kind : Oid) (decode : List UInt8 → Option α) (e : Extension) : Option α :=
  if e.kind = kind then decode e.payload else none

theorem findSome?_eq_bind {α β : Type} {p : α → Bool} {g : α → Option β} {l : List α}
    (h : ∀ a ∈ l, p a = (g a).isSome) : l.findSome? g = (l.find? p).bind g := by
  induction l with
  | nil => rfl
  | cons a l ih =>
      obtain ⟨first, rest⟩ := List.forall_mem_cons.mp h
      rw [List.findSome?_cons, List.find?_cons, first]
      cases found : g a with
      | none => exact ih rest
      | some b => simp [found]

theorem decoded?_none_or {α : Type} {d e : Extension} (other : d.kind ≠ e.kind) (kind : Oid)
    (f : List UInt8 → Option α) : d.decoded? kind f = none ∨ e.decoded? kind f = none := by
  by_cases here : d.kind = kind
  · exact .inr (if_neg (here ▸ other.symm))
  · exact .inl (if_neg here)

theorem findSome?_decoded? {α : Type} {kind : Oid} {decode : List UInt8 → Option α}
    {es : List Extension} (h : ∀ e ∈ es, e.kind = kind → (decode e.payload).isSome) :
    es.reverse.findSome? (decoded? kind decode) =
      (last? kind es).bind fun e => decode e.payload := by
  have entries : ∀ e ∈ es.reverse, decide (e.kind = kind) = (decoded? kind decode e).isSome := by
    intro e he
    by_cases here : e.kind = kind
    · rw [decoded?, if_pos here, decide_eq_true here, h e (List.mem_reverse.mp he) here]
    · rw [decoded?, if_neg here, decide_eq_false here, Option.isSome_none]
  rw [findSome?_eq_bind entries, last?]
  cases last : es.reverse.find? fun e => e.kind = kind with
  | none => rfl
  | some e => exact if_pos (by simpa using List.find?_some last)

variable {e : Extension}

theorem isSome_constraints (formed : ¬e.Malformed) (kind : e.kind = BasicConstraints.oid) :
    (BasicConstraints.ofDer? e.payload).isSome :=
  Option.isSome_iff_ne_none.mpr fun undecoded => formed (.inl ⟨kind, undecoded⟩)

theorem isSome_keyUsage (formed : ¬e.Malformed) (kind : e.kind = KeyUsage.oid) :
    (KeyUsage.ofDer? e.payload).isSome :=
  Option.isSome_iff_ne_none.mpr fun undecoded => formed (.inr ⟨kind, undecoded⟩)

theorem mem_and_kind_of_last? {kind : Oid} {es : List Extension} (h : last? kind es = some e) :
    e ∈ es ∧ e.kind = kind :=
  ⟨List.mem_reverse.mp (List.mem_of_find?_eq_some h), by simpa using List.find?_some h⟩

end Extension

namespace Certificate

def malformed? (c : Certificate) : Option Extension :=
  (c.extensions.getD []).find? fun e => e.Malformed

def Malformed (c : Certificate) : Prop :=
  ∃ e ∈ c.extensions.getD [], e.Malformed

theorem malformed_iff {c : Certificate} : c.Malformed ↔ ∃ e, c.malformed? = some e := by
  rw [← Option.isSome_iff_exists, malformed?, List.find?_isSome]
  simp [Malformed]

theorem malformed?_eq_none_iff {c : Certificate} : c.malformed? = none ↔ ¬c.Malformed := by
  simp [malformed?, Malformed]

theorem exists_malformed_of_mem {cs : List Certificate} (h : ∃ c ∈ cs, c.Malformed) :
    ∃ e, cs.findSome? malformed? = some e := by
  obtain ⟨c, among, malformed⟩ := h
  obtain ⟨e, first⟩ := malformed_iff.mp malformed
  rw [← Option.isSome_iff_exists, List.findSome?_isSome_iff]
  exact ⟨c, among, Option.isSome_iff_exists.mpr ⟨e, first⟩⟩

end Certificate

namespace KeyUsage

theorem testBit_maskOfBits (bs : List Bool) (i : Nat) :
    (maskOfBits bs).testBit i = bs[i]?.getD false := by
  induction bs generalizing i with
  | nil => simp [maskOfBits]
  | cons b bs ih =>
      cases i with
      | zero => cases b <;> simp [maskOfBits, Nat.testBit_zero]
      | succ i =>
          have halved : (b.toNat + 2 * maskOfBits bs) / 2 = maskOfBits bs := by
            cases b <;> simp
            omega
          rw [maskOfBits, Nat.testBit_succ, halved, ih]
          rfl

theorem ofDer?_eq_some_iff {bs : List UInt8} {k : KeyUsage} :
    ofDer? bs = some k ↔ ∃ b, (Certificate.bitString 0x03).all bs = some b ∧ b.size ≤ maxBits ∧
      k = ofMask (maskOfBits b.bits) := by
  rw [ofDer?, Reader.all_eq_some, read, Reader.value_eq_some]
  simp only [Certificate.bitString, Reader.all_eq_some, Reader.value_eq_some]
  constructor
  · rintro ⟨content, element, made⟩
    obtain ⟨b, whole, bits⟩ := Option.bind_eq_some_iff.mp made
    obtain ⟨short, kept⟩ := Option.ite_none_right_eq_some.mp bits
    exact ⟨b, ⟨content, element, whole⟩, short, (Option.some.inj kept).symm⟩
  · rintro ⟨b, ⟨content, element, whole⟩, short, rfl⟩
    refine ⟨content, element, ?_⟩
    rw [whole, Option.bind_some, ofBitString?, if_pos short]

end KeyUsage

namespace Profile

namespace Rights

def amend (r : Rights) (e : Extension) : Rights :=
  ⟨((e.decoded? BasicConstraints.oid BasicConstraints.ofDer?).map .ofConstraints).getD r.standing,
    (e.decoded? KeyUsage.oid KeyUsage.ofDer?).or r.keyUsage⟩

theorem revise_eq (r : Rights) (e : Extension) :
    r.revise e = if e.Malformed then .error e.defect else .ok (r.amend e) := by
  have distinct : BasicConstraints.oid ≠ KeyUsage.oid := by decide
  unfold revise amend Extension.Malformed Extension.decoded? Extension.defect
  by_cases constraints : e.kind = BasicConstraints.oid
  · rw [if_pos constraints]
    rcases Option.eq_none_or_eq_some (BasicConstraints.ofDer? e.payload) with decoded | ⟨c, decoded⟩
    · simp [constraints, decoded]
    · simp [constraints, decoded, distinct]
  · rw [if_neg constraints]
    by_cases usage : e.kind = KeyUsage.oid
    · rw [if_pos usage]
      rcases Option.eq_none_or_eq_some (KeyUsage.ofDer? e.payload) with decoded | ⟨k, decoded⟩
      · simp [usage, decoded, distinct.symm]
      · simp [usage, decoded, distinct.symm]
    · simp [constraints, usage]

theorem foldlM_revise (es : List Extension) (r : Rights) :
    es.foldlM revise r = match es.find? fun e => e.Malformed with
      | some e => .error e.defect
      | none => .ok (es.foldl amend r) := by
  induction es generalizing r with
  | nil => rfl
  | cons e es ih =>
      rw [List.foldlM_cons, revise_eq, List.find?_cons]
      by_cases malformed : e.Malformed
      · simp [malformed]
        rfl
      · simp only [malformed, if_false, decide_false]
        exact ih (r.amend e)

theorem foldl_amend (es : List Extension) (r : Rights) : es.foldl amend r =
    ⟨((es.reverse.findSome? (Extension.decoded? BasicConstraints.oid BasicConstraints.ofDer?)).map
        .ofConstraints).getD r.standing,
      (es.reverse.findSome? (Extension.decoded? KeyUsage.oid KeyUsage.ofDer?)).or r.keyUsage⟩ := by
  induction es generalizing r with
  | nil => rfl
  | cons e es ih =>
      rw [List.foldl_cons, ih, amend, List.reverse_cons, List.findSome?_append,
        List.findSome?_append, Option.or_assoc, List.findSome?_singleton,
        List.findSome?_singleton, Option.map_or, Option.getD_or]

theorem amend_comm (r : Rights) {d e : Extension} (other : d.kind ≠ e.kind) :
    (r.amend d).amend e = (r.amend e).amend d := by
  have constraints :=
    Extension.decoded?_none_or other BasicConstraints.oid BasicConstraints.ofDer?
  have usage := Extension.decoded?_none_or other KeyUsage.oid KeyUsage.ofDer?
  unfold amend
  rcases constraints with h | h <;> rcases usage with h' | h' <;> simp [h, h']

theorem revise_of_not_counts (r : Rights) {e : Extension} (h : ¬e.Counts) : r.revise e = .ok r := by
  obtain ⟨constraints, usage⟩ := not_or.mp h
  rw [revise, if_neg constraints, if_neg usage]

theorem foldlM_revise_filter (es : List Extension) (r : Rights) :
    (es.filter fun e => e.Counts).foldlM revise r = es.foldlM revise r := by
  induction es generalizing r with
  | nil => rfl
  | cons e es ih =>
      by_cases counts : e.Counts
      · rw [List.filter_cons_of_pos (by simpa using counts), List.foldlM_cons, List.foldlM_cons]
        exact congrArg _ (funext ih)
      · rw [List.filter_cons_of_neg (by simpa using counts), List.foldlM_cons,
          revise_of_not_counts r counts]
        exact ih r

theorem ofExtensions_of_first {es : List Extension} {e : Extension}
    (first : es.find? (fun e => e.Malformed) = some e) : ofExtensions es = .error e.defect := by
  rw [ofExtensions, foldlM_revise, first]

theorem ofExtensions_of_formed {es : List Extension} (formed : ∀ e ∈ es, ¬e.Malformed) :
    ofExtensions es = .ok (es.foldl amend .initial) := by
  have found : es.find? (fun e => e.Malformed) = none :=
    List.find?_eq_none.mpr fun e he => by simpa using formed e he
  rw [ofExtensions, foldlM_revise, found]

structure OfLast (es : List Extension) (r : Rights) : Prop where
  endEntity : Extension.last? BasicConstraints.oid es = none → r.standing = .endEntity
  standing : ∀ e, Extension.last? BasicConstraints.oid es = some e →
    ∃ b, BasicConstraints.ofDer? e.payload = some b ∧
      (b.ca = false → r.standing = .endEntity) ∧
      (b.ca = true → r.standing = .authority b.pathLength)
  unrestricted : Extension.last? KeyUsage.oid es = none → r.keyUsage = none
  keyUsage : ∀ e, Extension.last? KeyUsage.oid es = some e →
    ∃ b k, (Certificate.bitString 0x03).all e.payload = some b ∧ r.keyUsage = some k ∧
      (∀ u, k.permits u = b.bits[u.index]?.getD false) ∧
      (k.isEmpty = true ↔ ∀ u : Usage, b.bits[u.index]?.getD false = false)

theorem ofLast_foldl_amend {es : List Extension} (formed : ∀ e ∈ es, ¬e.Malformed) :
    OfLast es (es.foldl amend .initial) := by
  have constraints (e : Extension) (he : e ∈ es) := Extension.isSome_constraints (formed e he)
  have usage (e : Extension) (he : e ∈ es) := Extension.isSome_keyUsage (formed e he)
  rw [foldl_amend, Extension.findSome?_decoded? constraints, Extension.findSome?_decoded? usage]
  refine ⟨fun none => ?_, fun e last => ?_, fun none => ?_, fun e last => ?_⟩
  · rw [none]
    rfl
  · obtain ⟨among, kind⟩ := Extension.mem_and_kind_of_last? last
    obtain ⟨b, decoded⟩ := Option.isSome_iff_exists.mp (constraints e among kind)
    refine ⟨b, decoded, fun ca => ?_, fun ca => ?_⟩ <;>
      simp [last, decoded, Standing.ofConstraints, ca]
  · rw [none]
    rfl
  · obtain ⟨among, kind⟩ := Extension.mem_and_kind_of_last? last
    obtain ⟨k, decoded⟩ := Option.isSome_iff_exists.mp (usage e among kind)
    obtain ⟨b, whole, -, rfl⟩ := KeyUsage.ofDer?_eq_some_iff.mp decoded
    have permits (u : Usage) : (KeyUsage.ofMask (KeyUsage.maskOfBits b.bits)).permits u =
        b.bits[u.index]?.getD false := by
      rw [KeyUsage.permits_ofMask, KeyUsage.testBit_maskOfBits]
    refine ⟨b, _, whole, ?_, permits, ?_⟩
    · rw [last, Option.bind_some, decoded, Option.some_or]
    · simp only [KeyUsage.isEmpty_iff, permits]

end Rights

def rights (p : Profile) : Rights :=
  ⟨p.standing, p.keyUsage⟩

variable [AttributeNames]

theorem map_rights_ofCertificate (c : Certificate) : (ofCertificate c).map rights =
    (Rights.ofExtensions (c.extensions.getD [])).mapError .encoding := by
  unfold ofCertificate
  cases Rights.ofExtensions (c.extensions.getD []) <;> rfl

theorem ofCertificate_of_malformed {c : Certificate} {e : Extension} (h : c.malformed? = some e) :
    ofCertificate c = .error (.encoding e.defect) := by
  rw [ofCertificate, Rights.ofExtensions_of_first h]

theorem ofCertificate_of_formed {c : Certificate} (h : ¬c.Malformed) :
    ∃ p, ofCertificate c = .ok p ∧
      p.rights = (c.extensions.getD []).foldl Rights.amend .initial := by
  have formed : ∀ e ∈ c.extensions.getD [], ¬e.Malformed := fun e he malformed =>
    h ⟨e, he, malformed⟩
  rw [ofCertificate, Rights.ofExtensions_of_formed formed]
  exact ⟨_, rfl, rfl⟩

theorem ofCertificate_eq_error_iff {c : Certificate} {f : Fault} :
    ofCertificate c = .error f ↔ ∃ e, c.malformed? = some e ∧ f = .encoding e.defect := by
  cases malformed : c.malformed? with
  | some e => simp [ofCertificate_of_malformed malformed, eq_comm]
  | none =>
      obtain ⟨p, made, -⟩ :=
        ofCertificate_of_formed (Certificate.malformed?_eq_none_iff.mp malformed)
      simp [made]

theorem not_malformed_of_ofCertificate {c : Certificate} {p : Profile}
    (made : ofCertificate c = .ok p) : ¬c.Malformed := by
  intro malformed
  obtain ⟨e, first⟩ := Certificate.malformed_iff.mp malformed
  cases (ofCertificate_of_malformed first).symm.trans made

theorem ofCertificate_perm {c : Certificate} {es shuffled : List Extension} {p : Profile}
    (listed : c.extensions = some es) (perm : es.Perm shuffled)
    (distinct : (es.map Extension.kind).Nodup) (made : ofCertificate c = .ok p) :
    ofCertificate { c with extensions := some shuffled } = .ok p := by
  have formed : ∀ e ∈ es, ¬e.Malformed := fun e he malformed =>
    not_malformed_of_ofCertificate made ⟨e, by rwa [listed], malformed⟩
  have same : es.foldl Rights.amend .initial = shuffled.foldl Rights.amend .initial := by
    refine perm.foldl_eq' (fun d hd e he r => ?_) _
    by_cases equal : d.kind = e.kind
    · rw [List.inj_on_of_nodup_map distinct hd he equal]
    · exact r.amend_comm equal
  rw [ofCertificate, listed, Option.getD_some, Rights.ofExtensions_of_formed formed] at made
  rw [← Except.ok.inj made, ofCertificate, Option.getD_some,
    Rights.ofExtensions_of_formed fun e he => formed e (perm.mem_iff.mpr he), same]
  simp [perm.length_eq]

theorem rights_of_extensions (c : Certificate) :
    let es := c.extensions.getD []
    ((∃ f, ofCertificate c = .error f) ↔ ∃ e ∈ es, e.Malformed) ∧
    (∀ f, ofCertificate c = .error f ↔
      ∃ e, es.find? (fun e => e.Malformed) = some e ∧ f = .encoding e.defect) ∧
    (∀ p, ofCertificate c = .ok p → Rights.OfLast es p.rights) ∧
    (∀ d : Certificate,
      (d.extensions.getD []).filter (fun e => e.Counts) = es.filter (fun e => e.Counts) →
      (ofCertificate d).map rights = (ofCertificate c).map rights) ∧
    ∀ listed shuffled p, c.extensions = some listed → listed.Perm shuffled →
      (listed.map Extension.kind).Nodup → ofCertificate c = .ok p →
      ofCertificate { c with extensions := some shuffled } = .ok p := by
  intro es
  refine ⟨?_, fun f => ofCertificate_eq_error_iff, fun p made => ?_, fun d same => ?_,
    fun listed shuffled p => ofCertificate_perm⟩
  · constructor
    · rintro ⟨f, failed⟩
      obtain ⟨e, first, -⟩ := ofCertificate_eq_error_iff.mp failed
      exact Certificate.malformed_iff.mpr ⟨e, first⟩
    · intro malformed
      obtain ⟨e, first⟩ := Certificate.malformed_iff.mp malformed
      exact ⟨_, ofCertificate_of_malformed first⟩
  · have formed := not_malformed_of_ofCertificate made
    obtain ⟨q, made', rights⟩ := ofCertificate_of_formed formed
    obtain rfl := Except.ok.inj (made.symm.trans made')
    rw [rights]
    exact Rights.ofLast_foldl_amend fun e he malformed => formed ⟨e, he, malformed⟩
  · rw [map_rights_ofCertificate, map_rights_ofCertificate, Rights.ofExtensions,
      ← Rights.foldlM_revise_filter, same, Rights.foldlM_revise_filter]
    rfl

end Profile

end TrustRoles
