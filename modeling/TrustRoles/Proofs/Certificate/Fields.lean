import Mathlib.Data.List.DropRight
import TrustRoles.Certificate
import TrustRoles.Proofs.Der.Reader

namespace TrustRoles.Certificate

open Der

def Stray (number t : UInt8) : Prop :=
  isContextTag t = true ∧ tagNumber t < number

def StartsStray (number : UInt8) (bs : List UInt8) : Prop :=
  ∃ t, bs.head? = some t ∧ Stray number t

def ownField {α : Type} (number tag : UInt8) (r : Reader α) : Reader (Option α) := do
  match ← Reader.peek with
  | some t =>
      if isContextTag t = true ∧ tagNumber t = number then
        if t = tag then some <$> r else failure
      else pure none
  | none => pure none

def Rising (number : UInt8) (es : List Element) : Prop :=
  (number :: es.map fun e => tagNumber e.tag).IsChain (· < ·)

section Field

variable {α : Type} {m number tag : UInt8} {r : Reader α} {f : List UInt8 → Option α}
  {a : Option α} {bs rest : List UInt8}

theorem contextField_refusing :
    contextField false number tag r = refuseFields number >>= fun _ => ownField number tag r :=
  rfl

theorem contextField_skipping :
    contextField true number tag r = skipFields number >>= fun _ => ownField number tag r :=
  rfl

theorem refuseFields_eq_some :
    refuseFields number bs = some ((), rest) ↔ ¬ StartsStray number bs ∧ rest = bs := by
  cases bs with
  | nil =>
      constructor
      · intro h
        exact ⟨fun ⟨_, nothing, _⟩ => (by cases nothing), (Prod.mk.inj (Option.some.inj h)).2.symm⟩
      · rintro ⟨-, rfl⟩
        rfl
  | cons t bs =>
      have step : refuseFields number (t :: bs) =
          (if isContextTag t = true ∧ tagNumber t < number then failure else pure () :
            Reader Unit) (t :: bs) := rfl
      rw [step]
      constructor
      · intro h
        split at h
        · cases h
        · rename_i clear
          refine ⟨fun ⟨t', same, stray⟩ => clear ?_, (Prod.mk.inj (Option.some.inj h)).2.symm⟩
          exact Option.some.inj same ▸ stray
      · rintro ⟨clear, rfl⟩
        have kept : ¬(isContextTag t = true ∧ tagNumber t < number) :=
          fun stray => clear ⟨t, rfl, stray⟩
        rw [if_neg kept]
        rfl

theorem skipFieldsWithin_cons (fuel : Nat) (t : UInt8) :
    skipFieldsWithin (fuel + 1) number (t :: bs) =
      (if isContextTag t = true ∧ tagNumber t < number then
        discard Reader.element >>= fun _ => skipFieldsWithin fuel number
      else pure () : Reader Unit) (t :: bs) :=
  rfl

theorem skipFields_of_clear (clear : ¬ StartsStray number bs) :
    skipFields number bs = some ((), bs) := by
  cases bs with
  | nil => rfl
  | cons t bs =>
      have kept : ¬(isContextTag t = true ∧ tagNumber t < number) :=
        fun stray => clear ⟨t, rfl, stray⟩
      rw [skipFields, skipFieldsWithin_cons, if_neg kept]
      rfl

theorem spans_of_skipFieldsWithin {fuel : Nat}
    (h : skipFieldsWithin fuel number bs = some ((), rest)) :
    ∃ strays, Spans bs strays rest ∧ (∀ e ∈ strays, Stray number e.tag) ∧
      ¬ StartsStray number rest := by
  induction fuel generalizing bs with
  | zero => cases h
  | succ fuel ih =>
      cases bs with
      | nil =>
          obtain ⟨-, rfl⟩ := Prod.mk.inj (Option.some.inj h)
          exact ⟨[], .nil _, fun e he => (List.not_mem_nil he).elim,
            fun ⟨_, nothing, _⟩ => by cases nothing⟩
      | cons t bs =>
          rw [skipFieldsWithin_cons] at h
          split at h
          · rename_i stray
            obtain ⟨_, mid, passed, more⟩ := Reader.bind_eq_some.mp h
            obtain ⟨e, first⟩ := Reader.discard_eq_some.mp passed
            obtain ⟨strays, spans, all, clear⟩ := ih more
            refine ⟨e :: strays, .cons first spans, fun e' he' => ?_, clear⟩
            rcases List.mem_cons.mp he' with rfl | later
            · rw [(element?_cons first).1]
              exact stray
            · exact all e' later
          · rename_i clear
            obtain ⟨-, rfl⟩ := Prod.mk.inj (Option.some.inj h)
            refine ⟨[], .nil _, fun e he => (List.not_mem_nil he).elim,
              fun ⟨t', same, stray⟩ => clear ?_⟩
            exact Option.some.inj same ▸ stray

theorem ownField_cases (h : ownField number tag (Reader.value tag f) bs = some (a, rest)) :
    (∃ e, element? bs = some (e, rest) ∧ isContextTag e.tag = true ∧ tagNumber e.tag = number) ∨
      rest = bs ∧ ∀ t, bs.head? = some t → isContextTag t = true → tagNumber t ≠ number := by
  cases bs with
  | nil =>
      obtain ⟨-, rfl⟩ := Prod.mk.inj (Option.some.inj h)
      exact .inr ⟨rfl, fun _ nothing => by cases nothing⟩
  | cons t bs =>
      have step : ownField number tag (Reader.value tag f) (t :: bs) =
          (if isContextTag t = true ∧ tagNumber t = number then
            if t = tag then some <$> Reader.value tag f else failure
          else pure none : Reader (Option α)) (t :: bs) := rfl
      rw [step] at h
      split at h
      · rename_i own
        split at h
        · rename_i tagged
          obtain ⟨b, read, -⟩ := Reader.map_eq_some.mp h
          obtain ⟨content, first, -⟩ := Reader.value_eq_some.mp read
          exact .inl ⟨_, first, by rw [← tagged]; exact own⟩
        · cases h
      · rename_i other
        obtain ⟨-, rfl⟩ := Prod.mk.inj (Option.some.inj h)
        exact .inr ⟨rfl, fun t' same context same' =>
          other (Option.some.inj same ▸ ⟨context, same'⟩)⟩

theorem contextField_of_refusing (h : contextField false number tag r bs = some (a, rest)) :
    contextField true number tag r bs = some (a, rest) := by
  rw [contextField_refusing, Reader.bind_eq_some] at h
  obtain ⟨_, mid, refused, own⟩ := h
  obtain ⟨clear, rfl⟩ := refuseFields_eq_some.mp refused
  rw [contextField_skipping, Reader.bind_eq_some]
  exact ⟨(), mid, skipFields_of_clear clear, own⟩

theorem head?_of_element? {e : Element} (h : element? bs = some (e, rest)) :
    bs.head? = some e.tag := by
  cases bs with
  | nil => cases h
  | cons t bs => rw [(element?_cons h).1, List.head?_cons]

theorem rising_cons {e : Element} {es : List Element} :
    Rising m (e :: es) ↔ m < tagNumber e.tag ∧ Rising (tagNumber e.tag) es := by
  rw [Rising, List.map_cons, List.isChain_cons_cons]
  rfl

theorem spans_contextField
    (h : contextField true number tag (Reader.value tag f) bs = some (a, rest)) :
    ∃ es, Spans bs es rest ∧ (∀ e ∈ es, isContextTag e.tag = true) ∧
      ∀ (m : UInt8) {fs}, number.toNat = m.toNat + 1 → Spans rest fs [] →
        (∀ e ∈ fs, isContextTag e.tag = true) →
        (Rising m (es ++ fs) ↔
          contextField false number tag (Reader.value tag f) bs = some (a, rest) ∧
            Rising number fs) := by
  rw [contextField_skipping, Reader.bind_eq_some] at h
  obtain ⟨_, mid, skipped, own⟩ := h
  obtain ⟨strays, spans, all, clear⟩ := spans_of_skipFieldsWithin skipped
  cases spans with
  | nil =>
      have refusing : contextField false number tag (Reader.value tag f) bs = some (a, rest) :=
        Reader.bind_eq_some.mpr ⟨(), bs, refuseFields_eq_some.mpr ⟨clear, rfl⟩, own⟩
      rcases ownField_cases own with ⟨e, first, context, rfl⟩ | ⟨rfl, other⟩
      · refine ⟨[e], .one first, by simpa using context, fun m fs next _ _ => ?_⟩
        have above : m < tagNumber e.tag := by
          rw [UInt8.lt_iff_toNat_lt]
          omega
        simp [refusing, rising_cons, above]
      · refine ⟨[], .nil _, by simp, fun m fs next last context => ?_⟩
        cases last with
        | nil => simp [refusing, Rising]
        | @cons _ _ _ e fs first _ =>
            have head := head?_of_element? first
            have differs := other _ head (context e (by simp))
            have least : ¬ tagNumber e.tag < number :=
              fun below => clear ⟨_, head, context e (by simp), below⟩
            have above : number < tagNumber e.tag := by
              rw [UInt8.lt_iff_toNat_lt] at least ⊢
              have := UInt8.toNat_inj.not.mpr differs
              omega
            have above' : m < tagNumber e.tag := by
              rw [UInt8.lt_iff_toNat_lt] at above ⊢
              omega
            simp [refusing, rising_cons, above, above']
  | @cons _ _ _ e strays first more =>
      have stray := all e (by simp)
      have refused : contextField false number tag (Reader.value tag f) bs ≠ some (a, rest) := by
        intro accepted
        obtain ⟨_, mid', refused, -⟩ := Reader.bind_eq_some.mp accepted
        exact (refuseFields_eq_some.mp refused).1 ⟨_, head?_of_element? first, stray⟩
      have falls {m : UInt8} {fs : List Element} (next : number.toNat = m.toNat + 1) :
          ¬ Rising m (e :: strays ++ fs) := by
        rw [List.cons_append, rising_cons]
        rintro ⟨above, -⟩
        have below := stray.2
        rw [UInt8.lt_iff_toNat_lt] at above below
        omega
      have spans : Spans bs (e :: strays) mid := .cons first more
      rcases ownField_cases own with ⟨e', first', context, -⟩ | ⟨rfl, -⟩
      · refine ⟨e :: strays ++ [e'], spans.trans (.one first'), fun x hx => ?_, ?_⟩
        · rcases List.mem_append.mp hx with hx | hx
          · exact (all x hx).1
          · rw [List.mem_singleton.mp hx]
            exact context
        · intro m fs next _ _
          have falls' : ¬ Rising m (e :: strays ++ [e'] ++ fs) := by
            rw [List.append_assoc]
            exact falls next
          simp only [refused, falls', false_and]
      · refine ⟨e :: strays, spans, fun x hx => (all x hx).1, ?_⟩
        intro m fs next _ _
        simp only [refused, falls next, false_and]

end Field

section Body

variable {bs rest : List UInt8}

def required : Reader (List UInt8 × DistinguishedName × DistinguishedName) := do
  let _ ← contextField true 0 0xa0 (Reader.within 0xa0 (Reader.value 0x02 version?))
  let serial ← Reader.value 0x02 serialNumber?
  algorithm
  let issuer ← DistinguishedName.read
  validity
  let subject ← DistinguishedName.read
  publicKey
  pure (serial, issuer, subject)

def optionalFields (skipping : Bool) : Reader (Option (List Extension)) := do
  let _ ← contextField skipping 1 0x81 (bitString 0x81)
  let _ ← contextField skipping 2 0x82 (bitString 0x82)
  contextField skipping 3 0xa3
    (Reader.within 0xa3 (Reader.value 0x30 Extension.listOfContent?))

theorem not_startsStray_zero (bs : List UInt8) : ¬ StartsStray 0 bs := by
  rintro ⟨t, -, -, below⟩
  exact absurd below (by simp [UInt8.lt_iff_toNat_lt])

theorem contextField_zero {α : Type} (skipping : Bool) (tag : UInt8) (r : Reader α) :
    contextField skipping 0 tag r = contextField true 0 tag r := by
  cases skipping with
  | true => rfl
  | false =>
      funext bs
      have skipped := skipFields_of_clear (not_startsStray_zero bs)
      have refused := refuseFields_eq_some.mpr ⟨not_startsStray_zero bs, rfl⟩
      rw [contextField_refusing, contextField_skipping]
      change (refuseFields 0 bs).bind _ = (skipFields 0 bs).bind _
      rw [skipped, refused]

theorem body_eq (skipping : Bool) :
    body skipping = required >>= fun p => optionalFields skipping >>= fun extensions =>
      pure ⟨p.1, p.2.1, p.2.2, extensions⟩ := by
  simp only [body, required, optionalFields, contextField_zero skipping, bind_assoc, pure_bind]

theorem endsIn_required : Reader.EndsIn 0x30 required := by
  refine Reader.Steps.bind (fun bs a rest read => ?_) fun _ => ?_
  · obtain ⟨es, spans, -⟩ := spans_contextField read
    exact ⟨es, spans⟩
  refine (Reader.endsIn_value ..).steps.bind fun serial => ?_
  refine (Reader.endsIn_within ..).steps.bind fun _ => ?_
  refine (Reader.endsIn_value ..).steps.bind fun issuer => ?_
  refine (Reader.endsIn_within ..).steps.bind fun _ => ?_
  refine (Reader.endsIn_value ..).steps.bind fun subject => ?_
  exact (Reader.endsIn_within ..).map _

theorem optionalFields_of_refusing {x : Option (List Extension)}
    (h : optionalFields false bs = some (x, rest)) : optionalFields true bs = some (x, rest) := by
  obtain ⟨a, mid, first, more⟩ := Reader.bind_eq_some.mp h
  obtain ⟨b, mid', second, third⟩ := Reader.bind_eq_some.mp more
  exact Reader.bind_eq_some.mpr ⟨a, mid, contextField_of_refusing first,
    Reader.bind_eq_some.mpr ⟨b, mid', contextField_of_refusing second,
      contextField_of_refusing third⟩⟩

theorem optionalFields_spans {x : Option (List Extension)}
    (h : optionalFields true bs = some (x, [])) :
    ∃ es, Spans bs es [] ∧ (∀ e ∈ es, isContextTag e.tag = true) ∧
      (Rising 0 es ↔ optionalFields false bs = some (x, [])) := by
  obtain ⟨a, mid, first, more⟩ := Reader.bind_eq_some.mp h
  obtain ⟨b, mid', second, third⟩ := Reader.bind_eq_some.mp more
  obtain ⟨es₁, spans₁, context₁, rising₁⟩ := spans_contextField first
  obtain ⟨es₂, spans₂, context₂, rising₂⟩ := spans_contextField second
  obtain ⟨es₃, spans₃, context₃, rising₃⟩ := spans_contextField third
  have context : ∀ e ∈ es₂ ++ es₃, isContextTag e.tag = true := fun e he =>
    (List.mem_append.mp he).elim (context₂ e) (context₃ e)
  refine ⟨es₁ ++ (es₂ ++ es₃), spans₁.trans (spans₂.trans spans₃), fun e he =>
    (List.mem_append.mp he).elim (context₁ e) (context e), ?_⟩
  have third_iff : Rising 2 es₃ ↔ contextField false 3 0xa3
      (Reader.within 0xa3 (Reader.value 0x30 Extension.listOfContent?)) mid' = some (x, []) := by
    have := rising₃ 2 rfl (.nil []) fun e he => (List.not_mem_nil he).elim
    rw [List.append_nil] at this
    exact this.trans ⟨And.left, fun read => ⟨read, List.IsChain.singleton _⟩⟩
  rw [rising₁ 0 rfl (spans₂.trans spans₃) context, rising₂ 1 rfl spans₃ context₃, third_iff]
  constructor
  · rintro ⟨first, second, third⟩
    exact Reader.bind_eq_some.mpr ⟨a, mid, first, Reader.bind_eq_some.mpr ⟨b, mid', second, third⟩⟩
  · intro strict
    obtain ⟨a', mid₁, first', more'⟩ := Reader.bind_eq_some.mp strict
    obtain ⟨b', mid₂, second', third'⟩ := Reader.bind_eq_some.mp more'
    obtain ⟨rfl, rfl⟩ := Prod.mk.inj <| Option.some.inj <|
      (contextField_of_refusing first').symm.trans first
    obtain ⟨rfl, rfl⟩ := Prod.mk.inj <| Option.some.inj <|
      (contextField_of_refusing second').symm.trans second
    exact ⟨first', second', third'⟩

theorem body_eq_some {skipping : Bool} {c : Certificate} :
    body skipping bs = some (c, rest) ↔ ∃ p mid x, required bs = some (p, mid) ∧
      optionalFields skipping mid = some (x, rest) ∧ c = ⟨p.1, p.2.1, p.2.2, x⟩ := by
  rw [body_eq, Reader.bind_eq_some]
  constructor
  · rintro ⟨p, mid, first, more⟩
    obtain ⟨x, mid', fields, kept⟩ := Reader.bind_eq_some.mp more
    obtain ⟨rfl, rfl⟩ := Prod.mk.inj (Option.some.inj kept)
    exact ⟨p, mid, x, first, fields, rfl⟩
  · rintro ⟨p, mid, x, first, fields, rfl⟩
    exact ⟨p, mid, first, Reader.bind_eq_some.mpr ⟨x, rest, fields, rfl⟩⟩

theorem body_of_refusing {c : Certificate} (h : body false bs = some (c, rest)) :
    body true bs = some (c, rest) := by
  obtain ⟨p, mid, x, first, fields, made⟩ := body_eq_some.mp h
  exact body_eq_some.mpr ⟨p, mid, x, first, optionalFields_of_refusing fields, made⟩

end Body

def optionalElements (bs : List UInt8) : List Element :=
  ((elements? bs).getD []).rtakeWhile fun e => isContextTag e.tag

theorem rtakeWhile_append {es fs : List Element} {e : Element} (required : e.tag = 0x30)
    (all : ∀ e ∈ fs, isContextTag e.tag = true) :
    (es ++ [e] ++ fs).rtakeWhile (fun e => isContextTag e.tag) = fs := by
  induction fs using List.reverseRecOn with
  | nil =>
      rw [List.append_nil, List.rtakeWhile_concat_neg]
      rw [required]
      decide
  | append_singleton fs f ih =>
      rw [← List.append_assoc,
        List.rtakeWhile_concat_pos (fun e : Element => isContextTag e.tag) _ f (all f (by simp)),
        ih fun e he => all e (by simp [he])]

theorem rising_optionalElements_iff {bs : List UInt8} {c : Certificate}
    (h : body true bs = some (c, [])) :
    Rising 0 (optionalElements bs) ↔ body false bs = some (c, []) := by
  obtain ⟨p, mid, x, first, fields, rfl⟩ := body_eq_some.mp h
  obtain ⟨es, e, spans, tagged⟩ := endsIn_required first
  obtain ⟨fs, spans', context, rising⟩ := optionalFields_spans fields
  have read := (spans.trans spans').elements?
  rw [optionalElements, read, Option.getD_some, rtakeWhile_append tagged context, rising]
  constructor
  · intro strict
    exact body_eq_some.mpr ⟨p, mid, x, first, strict, rfl⟩
  · intro strict
    obtain ⟨p', mid', x', first', strict, same⟩ := body_eq_some.mp strict
    obtain ⟨rfl, rfl⟩ := Prod.mk.inj (Option.some.inj (first.symm.trans first'))
    cases same
    exact strict

def signedPart? (bs : List UInt8) : Option (List UInt8) := do
  let whole ← element? bs
  let signed ← element? whole.1.content
  some signed.1.content

/-- After the public key the numbers of the context fields ascend strictly, from above zero. -/
def InOrder (bs : List UInt8) : Prop :=
  ∃ signed, signedPart? bs = some signed ∧ Rising 0 (optionalElements signed)

theorem read_eq_some {skipping : Bool} {bs rest : List UInt8} {c : Certificate} :
    read skipping bs = some (c, rest) ↔
      ∃ whole signed after, element? bs = some (⟨0x30, whole⟩, rest) ∧
        element? whole = some (⟨0x30, signed⟩, after) ∧ body skipping signed = some (c, []) ∧
        (algorithm >>= fun _ => discard (bitString 0x03)) after = some ((), []) := by
  rw [read, Reader.within_eq_some]
  constructor
  · rintro ⟨whole, outer, inside⟩
    obtain ⟨c', after, first, more⟩ := Reader.bind_eq_some.mp inside
    obtain ⟨signed, inner, made⟩ := Reader.within_eq_some.mp first
    obtain ⟨u, mid, second, more⟩ := Reader.bind_eq_some.mp more
    obtain ⟨v, mid', third, kept⟩ := Reader.bind_eq_some.mp more
    obtain ⟨rfl, rfl⟩ := Prod.mk.inj (Option.some.inj kept)
    exact ⟨whole, signed, after, outer, inner, made,
      Reader.bind_eq_some.mpr ⟨u, mid, second, third⟩⟩
  · rintro ⟨whole, signed, after, outer, inner, made, ending⟩
    obtain ⟨u, mid, second, third⟩ := Reader.bind_eq_some.mp ending
    refine ⟨whole, outer, Reader.bind_eq_some.mpr ⟨c, after, ?_, ?_⟩⟩
    · exact Reader.within_eq_some.mpr ⟨signed, inner, made⟩
    · exact Reader.bind_eq_some.mpr ⟨u, mid, second, Reader.bind_eq_some.mpr ⟨_, _, third, rfl⟩⟩

variable {bs : List UInt8} {c : Certificate}

theorem ofDer?_eq_some : ofDer? bs = some c ↔ read true bs = some (c, []) :=
  Reader.all_eq_some

theorem read_of_refusing {rest : List UInt8} (h : read false bs = some (c, rest)) :
    read true bs = some (c, rest) := by
  obtain ⟨whole, signed, after, outer, inner, made, ending⟩ := read_eq_some.mp h
  exact read_eq_some.mpr ⟨whole, signed, after, outer, inner, body_of_refusing made, ending⟩

theorem inOrder_iff (h : ofDer? bs = some c) : InOrder bs ↔ read false bs = some (c, []) := by
  obtain ⟨whole, signed, after, outer, inner, made, ending⟩ := read_eq_some.mp (ofDer?_eq_some.mp h)
  have part : signedPart? bs = some signed := by simp [signedPart?, outer, inner]
  simp only [InOrder, part, Option.some.injEq, exists_eq_left', rising_optionalElements_iff made]
  constructor
  · intro strict
    exact read_eq_some.mpr ⟨whole, signed, after, outer, inner, strict, ending⟩
  · intro strict
    obtain ⟨whole', signed', after', outer', inner', strict, -⟩ := read_eq_some.mp strict
    obtain ⟨⟨rfl⟩, -⟩ := Prod.mk.inj (Option.some.inj (outer.symm.trans outer'))
    obtain ⟨⟨rfl⟩, -⟩ := Prod.mk.inj (Option.some.inj (inner.symm.trans inner'))
    exact strict

theorem atFront?_of_inOrder (h : ofDer? bs = some c) (ordered : InOrder bs) :
    atFront? bs = some c := by
  rw [atFront?, (inOrder_iff h).mp ordered]
  rfl

theorem atFront?_of_not_inOrder (h : ofDer? bs = some c) (disordered : ¬ InOrder bs) :
    atFront? bs = none := by
  rw [atFront?, Option.map_eq_none_iff, Option.eq_none_iff_forall_ne_some]
  rintro ⟨c', rest⟩ strict
  have same := (read_of_refusing strict).symm.trans (ofDer?_eq_some.mp h)
  rw [same] at strict
  exact disordered ((inOrder_iff h).mpr strict)

end TrustRoles.Certificate
