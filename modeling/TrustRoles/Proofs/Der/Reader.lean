import TrustRoles.Der.Reader

namespace TrustRoles.Der

theorem longLength?_le {width n : Nat} {bs rest : List UInt8}
    (h : longLength? width bs = some (n, rest)) : rest.length ≤ bs.length := by
  unfold longLength? at h
  dsimp only at h
  split at h
  · obtain ⟨-, rfl⟩ := Prod.mk.inj (Option.some.inj h)
    rw [List.length_drop]
    exact Nat.sub_le ..
  · cases h

theorem length?_le {n : Nat} {bs rest : List UInt8} (h : length? bs = some (n, rest)) :
    rest.length ≤ bs.length := by
  cases bs with
  | nil => cases h
  | cons b bs =>
      rw [length?] at h
      split at h
      · obtain ⟨-, rfl⟩ := Prod.mk.inj (Option.some.inj h)
        exact Nat.le_succ _
      · split at h
        · exact Nat.le_succ_of_le (longLength?_le h)
        · cases h

theorem element?_cons {t : UInt8} {bs rest : List UInt8} {e : Element}
    (h : element? (t :: bs) = some (e, rest)) : e.tag = t ∧ rest.length ≤ bs.length := by
  rw [element?] at h
  split at h
  · split at h
    · cases h
    · rename_i n content measured
      split at h
      · obtain ⟨rfl, rfl⟩ := Prod.mk.inj (Option.some.inj h)
        refine ⟨rfl, Nat.le_trans ?_ (length?_le measured)⟩
        rw [List.length_drop]
        exact Nat.sub_le ..
      · cases h
  · cases h

theorem longLength?_append {width n : Nat} {bs rest : List UInt8}
    (h : longLength? width bs = some (n, rest)) (more : List UInt8) :
    longLength? width (bs ++ more) = some (n, rest ++ more) := by
  unfold longLength? at h ⊢
  dsimp only at h ⊢
  split at h
  · rename_i minimal
    obtain ⟨rfl, rfl⟩ := Prod.mk.inj (Option.some.inj h)
    have long : width ≤ (bs ++ more).length := by
      rw [List.length_append]
      omega
    rw [List.take_append_of_le_length minimal.1, List.drop_append_of_le_length minimal.1,
      if_pos ⟨long, minimal.2⟩]
  · cases h

theorem length?_append {n : Nat} {bs rest : List UInt8} (h : length? bs = some (n, rest))
    (more : List UInt8) : length? (bs ++ more) = some (n, rest ++ more) := by
  cases bs with
  | nil => cases h
  | cons b bs =>
      rw [List.cons_append]
      rw [length?] at h ⊢
      split at h
      · rename_i short
        obtain ⟨rfl, rfl⟩ := Prod.mk.inj (Option.some.inj h)
        rw [if_pos short]
      · rename_i unshort
        rw [if_neg unshort]
        split at h
        · rename_i long
          rw [if_pos long, longLength?_append h]
        · cases h

theorem element?_append {bs rest : List UInt8} {e : Element} (h : element? bs = some (e, rest))
    (more : List UInt8) : element? (bs ++ more) = some (e, rest ++ more) := by
  cases bs with
  | nil => cases h
  | cons t bs =>
      rw [List.cons_append]
      rw [element?] at h ⊢
      split at h
      · rename_i known
        rw [if_pos known]
        split at h
        · cases h
        · rename_i n content measured
          rw [length?_append measured more]
          split at h
          · rename_i enough
            obtain ⟨rfl, rfl⟩ := Prod.mk.inj (Option.some.inj h)
            have longer : n ≤ (content ++ more).length := by
              rw [List.length_append]
              omega
            dsimp only
            rw [if_pos longer, List.take_append_of_le_length enough,
              List.drop_append_of_le_length enough]
          · cases h
      · cases h

theorem elementsWithin_of_le {fuel : Nat} {bs : List UInt8} (enough : bs.length ≤ fuel) :
    elementsWithin fuel bs = elements? bs := by
  -- both sides take the same elements: the fuel only has to outlast the bytes
  have agree : ∀ {m n : Nat} {bs : List UInt8}, bs.length ≤ m → bs.length ≤ n →
      elementsWithin m bs = elementsWithin n bs := by
    intro m
    induction m with
    | zero =>
        intro n bs hm _
        obtain rfl := List.length_eq_zero_iff.mp (Nat.le_zero.mp hm)
        cases n <;> rfl
    | succ m ih =>
        intro n bs hm hn
        cases bs with
        | nil => cases n <;> rfl
        | cons b bs =>
            obtain ⟨n, rfl⟩ := Nat.exists_eq_add_one_of_ne_zero (Nat.ne_zero_of_lt hn)
            rw [elementsWithin, elementsWithin]
            cases first : element? (b :: bs) with
            | none => rfl
            | some r =>
                have shorter := (element?_cons first).2
                dsimp only
                rw [ih (Nat.le_trans shorter (Nat.le_of_succ_le_succ hm))
                  (Nat.le_trans shorter (Nat.le_of_succ_le_succ hn))]
  exact agree enough (Nat.le_refl _)

theorem elements?_of_element? {bs rest : List UInt8} {e : Element}
    (h : element? bs = some (e, rest)) : elements? bs = (elements? rest).map (e :: ·) := by
  cases bs with
  | nil => cases h
  | cons b bs =>
      rw [elements?, List.length_cons, elementsWithin, h]
      dsimp only
      rw [elementsWithin_of_le (element?_cons h).2]

inductive Spans : List UInt8 → List Element → List UInt8 → Prop
  | nil (bs : List UInt8) : Spans bs [] bs
  | cons {bs mid rest : List UInt8} {e : Element} {es : List Element} :
      element? bs = some (e, mid) → Spans mid es rest → Spans bs (e :: es) rest

namespace Spans

variable {bs mid rest : List UInt8} {es fs : List Element} {e : Element}

theorem one (h : element? bs = some (e, rest)) : Spans bs [e] rest :=
  .cons h (.nil rest)

theorem trans (h : Spans bs es mid) (h' : Spans mid fs rest) : Spans bs (es ++ fs) rest := by
  induction h with
  | nil => exact h'
  | cons first _ ih => exact .cons first (ih h')

theorem elements? (h : Spans bs es []) : Der.elements? bs = some es := by
  generalize done : ([] : List UInt8) = rest at h
  induction h with
  | nil =>
      subst done
      rfl
  | cons first _ ih => rw [elements?_of_element? first, ih done, Option.map_some]

end Spans

namespace Reader

variable {α β : Type} {bs rest : List UInt8}

theorem bind_eq_some {r : Reader α} {k : α → Reader β} {x : β × List UInt8} :
    (r >>= k) bs = some x ↔ ∃ a mid, r bs = some (a, mid) ∧ k a mid = some x := by
  change (r bs).bind (fun p => k p.1 p.2) = some x ↔ _
  rw [Option.bind_eq_some_iff]
  exact ⟨fun ⟨p, read, next⟩ => ⟨p.1, p.2, read, next⟩, fun ⟨a, mid, read, next⟩ =>
    ⟨(a, mid), read, next⟩⟩

theorem map_eq_some {r : Reader α} {g : α → β} {b : β} :
    (g <$> r) bs = some (b, rest) ↔ ∃ a, r bs = some (a, rest) ∧ g a = b := by
  change (r bs).bind (fun p => some (g p.1, p.2)) = some (b, rest) ↔ _
  rw [Option.bind_eq_some_iff]
  constructor
  · rintro ⟨⟨a, mid⟩, read, made⟩
    obtain ⟨rfl, rfl⟩ := Prod.mk.inj (Option.some.inj made)
    exact ⟨a, read, rfl⟩
  · rintro ⟨a, read, rfl⟩
    exact ⟨(a, rest), read, rfl⟩

theorem discard_eq_some {r : Reader α} {u : PUnit} :
    discard r bs = some (u, rest) ↔ ∃ a, r bs = some (a, rest) := by
  change ((fun _ => u) <$> r) bs = some (u, rest) ↔ _
  rw [map_eq_some]
  exact ⟨fun ⟨a, read, _⟩ => ⟨a, read⟩, fun ⟨a, read⟩ => ⟨a, read, rfl⟩⟩

theorem all_eq_some {r : Reader α} {a : α} : r.all bs = some a ↔ r bs = some (a, []) := by
  unfold all
  constructor
  · intro h
    split at h
    · rename_i read
      rw [read, Option.some.inj h]
    · cases h
  · intro h
    rw [h]

theorem content_eq_some {tag : UInt8} {content : List UInt8} :
    Reader.content tag bs = some (content, rest) ↔ element? bs = some (⟨tag, content⟩, rest) := by
  rw [Reader.content, bind_eq_some]
  constructor
  · rintro ⟨e, mid, read, kept⟩
    split at kept
    · rename_i tagged
      obtain ⟨rfl, rfl⟩ := Prod.mk.inj (Option.some.inj kept)
      rw [← tagged]
      exact read
    · cases kept
  · intro h
    exact ⟨⟨tag, content⟩, rest, h, if_pos rfl ▸ rfl⟩

theorem value_eq_some {tag : UInt8} {f : List UInt8 → Option α} {a : α} :
    Reader.value tag f bs = some (a, rest) ↔
      ∃ content, element? bs = some (⟨tag, content⟩, rest) ∧ f content = some a := by
  rw [Reader.value, bind_eq_some]
  constructor
  · rintro ⟨content, mid, read, kept⟩
    refine ⟨content, ?_⟩
    rw [content_eq_some] at read
    cases made : f content with
    | none =>
        rw [made] at kept
        cases kept
    | some b =>
        rw [made] at kept
        obtain ⟨rfl, rfl⟩ := Prod.mk.inj (Option.some.inj kept)
        exact ⟨read, rfl⟩
  · rintro ⟨content, read, made⟩
    refine ⟨content, rest, content_eq_some.mpr read, ?_⟩
    rw [made]
    rfl

theorem within_eq_some {tag : UInt8} {r : Reader α} {a : α} :
    Reader.within tag r bs = some (a, rest) ↔
      ∃ content, element? bs = some (⟨tag, content⟩, rest) ∧ r content = some (a, []) := by
  rw [Reader.within, value_eq_some]
  simp only [all_eq_some]

def Steps (r : Reader α) : Prop :=
  ∀ ⦃bs a rest⦄, r bs = some (a, rest) → ∃ es, Spans bs es rest

def EndsIn (tag : UInt8) (r : Reader α) : Prop :=
  ∀ ⦃bs a rest⦄, r bs = some (a, rest) → ∃ es e, Spans bs (es ++ [e]) rest ∧ e.tag = tag

theorem EndsIn.steps {tag : UInt8} {r : Reader α} (h : EndsIn tag r) : Steps r := by
  intro bs a rest read
  obtain ⟨es, e, spans, -⟩ := h read
  exact ⟨es ++ [e], spans⟩

theorem endsIn_value (tag : UInt8) (f : List UInt8 → Option α) :
    EndsIn tag (Reader.value tag f) := by
  intro bs a rest read
  obtain ⟨content, first, -⟩ := value_eq_some.mp read
  exact ⟨[], _, .one first, rfl⟩

theorem endsIn_within (tag : UInt8) (r : Reader α) : EndsIn tag (Reader.within tag r) :=
  endsIn_value tag r.all

theorem Steps.bind {r : Reader α} {k : α → Reader β} {tag : UInt8} (h : Steps r)
    (h' : ∀ a, EndsIn tag (k a)) : EndsIn tag (r >>= k) := by
  intro bs b rest read
  obtain ⟨a, mid, first, next⟩ := bind_eq_some.mp read
  obtain ⟨es, spans⟩ := h first
  obtain ⟨fs, e, spans', tagged⟩ := h' a next
  refine ⟨es ++ fs, e, ?_, tagged⟩
  rw [List.append_assoc]
  exact spans.trans spans'

theorem EndsIn.map {r : Reader α} {tag : UInt8} (h : EndsIn tag r) (f : α → β) :
    EndsIn tag (r >>= fun a => pure (f a)) := by
  intro bs b rest read
  obtain ⟨a, mid, first, next⟩ := bind_eq_some.mp read
  obtain ⟨-, rfl⟩ := Prod.mk.inj (Option.some.inj next)
  exact h first

end Reader

end TrustRoles.Der
