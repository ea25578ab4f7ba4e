import TrustRoles.Text.Hex

namespace TrustRoles.Text

variable {as bs cs : List Char} {s t : String}

def isControl (c : Char) : Bool :=
  c.toNat < 32 || c.toNat == 127

def Plain (cs : List Char) : Prop :=
  (cs.all fun c => !isControl c) = true

instance (cs : List Char) : Decidable (Plain cs) :=
  inferInstanceAs (Decidable (_ = true))

theorem plain_iff : Plain cs ↔ ∀ c ∈ cs, isControl c = false := by
  simp [Plain]

theorem Plain.append (ha : Plain as) (hb : Plain bs) : Plain (as ++ bs) := by
  rw [Plain, List.all_append, ha, hb]
  rfl

theorem plain_append_string (hs : Plain s.toList) (ht : Plain t.toList) :
    Plain (s ++ t).toList := by
  rw [String.toList_append]
  exact hs.append ht

theorem plain_intercalate {sep : List Char} (hsep : Plain sep) {ls : List (List Char)}
    (h : ∀ l ∈ ls, Plain l) : Plain (sep.intercalate ls) := by
  induction ls with
  | nil => exact (rfl : Plain [])
  | cons l ls ih =>
      obtain ⟨here, later⟩ := List.forall_mem_cons.mp h
      cases ls with
      | nil => simpa using here
      | cons m ls =>
          rw [List.intercalate_cons_cons]
          exact (here.append hsep).append (ih later)

theorem plain_intercalate_string (hs : Plain s.toList) {ts : List String}
    (h : ∀ t ∈ ts, Plain t.toList) : Plain (s.intercalate ts).toList := by
  rw [String.toList_intercalate]
  exact plain_intercalate hs (List.forall_mem_map.mpr h)

theorem plain_toString (n : Nat) : Plain (toString n).toList := by
  rw [Nat.toString_eq_repr, Nat.toList_repr, plain_iff]
  intro c digit
  have bounds := Nat.isDigit_of_mem_toDigits (by decide) (by decide) digit
  simp only [Char.isDigit, Bool.and_eq_true, decide_eq_true_eq, ge_iff_le] at bounds
  have low : 48 ≤ c.toNat := bounds.1
  have high : c.toNat ≤ 57 := bounds.2
  simp only [isControl, Bool.or_eq_false_iff, decide_eq_false_iff_not, beq_eq_false_iff_ne]
  omega

theorem isControl_hexDigit : ∀ n < 16, isControl (hexDigit n) = false := by
  decide

theorem plain_hexBytes (bs : List UInt8) : Plain (hexBytes bs) := by
  rw [plain_iff]
  intro c mem
  obtain ⟨b, -, digit⟩ := List.mem_flatMap.mp mem
  have small := b.toNat_lt
  rcases List.mem_cons.mp digit with rfl | later
  · exact isControl_hexDigit _ (by omega)
  · obtain rfl := List.mem_singleton.mp later
    exact isControl_hexDigit _ (by omega)

theorem splitOn_line (whole : '\n' ∉ as) (bs : List Char) :
    (as ++ '\n' :: bs).splitOn '\n' = as :: bs.splitOn '\n' := by
  have split : (as ++ '\n' :: bs).splitOn '\n' = as.splitOn '\n' ++ bs.splitOn '\n' :=
    List.splitOnP_append_cons as bs (beq_self_eq_true '\n')
  rw [split, List.splitOn_eq_singleton whole]
  rfl

def HasLines (text : String) (lines : List String) : Prop :=
  text.toList.splitOn '\n' = lines.map String.toList ++ [[]]

theorem hasLines_join {lines : List String} (plain : ∀ l ∈ lines, Plain l.toList) :
    HasLines (String.join (lines.map fun l => l ++ "\n")) lines := by
  unfold HasLines
  rw [String.toList_join]
  induction lines with
  | nil => rfl
  | cons l lines ih =>
      obtain ⟨here, later⟩ := List.forall_mem_cons.mp plain
      have whole : '\n' ∉ l.toList := fun inside =>
        absurd (plain_iff.mp here '\n' inside) (by decide)
      have front : (l ++ "\n").toList = l.toList ++ ['\n'] := String.toList_append
      rw [List.map_cons, List.flatMap_cons, front, List.append_assoc, List.singleton_append,
        splitOn_line whole, ih later]
      rfl

end TrustRoles.Text
