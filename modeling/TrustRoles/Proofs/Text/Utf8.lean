import TrustRoles.Text.Utf8

namespace TrustRoles.Text

theorem utf8_eq_flatMap (s : String) : utf8 s = s.toList.flatMap String.utf8EncodeChar := by
  rw [utf8, String.toUTF8, ← String.utf8Encode_toList]
  simp [List.utf8Encode]

theorem toNat_val_lt (c : Char) : c.val.toNat < 0x110000 := by
  have valid := c.valid
  simp only [UInt32.isValidChar, Nat.isValidChar] at valid
  omega

theorem toNat_byte {n : Nat} (h : n < 256) : (UInt8.ofNat n).toNat = n := by
  rw [UInt8.toNat_ofNat']
  exact Nat.mod_eq_of_lt h

variable {m n : Nat} {x y : List UInt8}

theorem cons_lt_cons_of_lt (hn : n < 256) (h : m < n) :
    UInt8.ofNat m :: x < UInt8.ofNat n :: y := by
  rw [List.cons_lt_cons_iff, UInt8.lt_iff_toNat_lt, toNat_byte hn, toNat_byte (Nat.lt_trans h hn)]
  exact .inl h

theorem cons_lt_cons (hn : n < 256) (h : m < n ∨ m = n ∧ x < y) :
    UInt8.ofNat m :: x < UInt8.ofNat n :: y := by
  rcases h with h | ⟨rfl, h⟩
  · exact cons_lt_cons_of_lt hn h
  · rw [List.cons_lt_cons_iff]
    exact .inr ⟨rfl, h⟩

theorem two_lt_two {m' n' : Nat} (hn : n < 256) (hn' : n' < 256) (h : m < n ∨ m = n ∧ m' < n') :
    UInt8.ofNat m :: UInt8.ofNat m' :: x < UInt8.ofNat n :: UInt8.ofNat n' :: y :=
  cons_lt_cons hn (h.imp_right fun ⟨same, less⟩ => ⟨same, cons_lt_cons_of_lt hn' less⟩)

theorem utf8EncodeChar_lt {c d : Char} (h : c < d) (x y : List UInt8) :
    String.utf8EncodeChar c ++ x < String.utf8EncodeChar d ++ y := by
  have below : c.val.toNat < d.val.toNat := h
  have bounded := toNat_val_lt d
  unfold String.utf8EncodeChar
  dsimp only
  generalize c.val.toNat = m at below
  generalize d.val.toNat = n at below bounded
  by_cases one : n ≤ 0x7f
  · rw [if_pos one, if_pos (by omega)]
    exact cons_lt_cons_of_lt (by omega) below
  rw [if_neg one]
  by_cases two : n ≤ 0x7ff
  · rw [if_pos two]
    split
    · exact cons_lt_cons_of_lt (by omega) (by omega)
    · rw [if_pos (by omega)]
      exact two_lt_two (by omega) (by omega) (by omega)
  rw [if_neg two]
  by_cases three : n ≤ 0xffff
  · rw [if_pos three]
    split
    · exact cons_lt_cons_of_lt (by omega) (by omega)
    split
    · exact cons_lt_cons_of_lt (by omega) (by omega)
    · rw [if_pos (by omega)]
      rcases Nat.lt_or_eq_of_le (Nat.div_le_div_right (c := 4096) (Nat.le_of_lt below)) with
        less | same
      · exact cons_lt_cons_of_lt (by omega) (by omega)
      · exact cons_lt_cons (by omega)
          (.inr ⟨by omega, two_lt_two (by omega) (by omega) (by omega)⟩)
  · rw [if_neg three]
    split
    · exact cons_lt_cons_of_lt (by omega) (by omega)
    split
    · exact cons_lt_cons_of_lt (by omega) (by omega)
    split
    · exact cons_lt_cons_of_lt (by omega) (by omega)
    · rcases Nat.lt_or_eq_of_le (Nat.div_le_div_right (c := 4096) (Nat.le_of_lt below)) with
        less | same
      · exact two_lt_two (by omega) (by omega) (by omega)
      · exact cons_lt_cons (by omega) (.inr ⟨by omega, cons_lt_cons (by omega)
          (.inr ⟨by omega, two_lt_two (by omega) (by omega) (by omega)⟩)⟩)

theorem flatMap_utf8EncodeChar_lt {a b : List Char} (h : a < b) :
    a.flatMap String.utf8EncodeChar < b.flatMap String.utf8EncodeChar := by
  induction a generalizing b with
  | nil =>
      cases b with
      | nil => cases h
      | cons d b =>
          rw [List.flatMap_cons]
          cases encoded : String.utf8EncodeChar d with
          | nil => exact absurd encoded String.utf8EncodeChar_ne_nil
          | cons _ _ => exact List.nil_lt_cons _ _
  | cons c a ih =>
      cases b with
      | nil => cases h
      | cons d b =>
          rw [List.flatMap_cons, List.flatMap_cons]
          rcases List.cons_lt_cons_iff.mp h with less | ⟨rfl, less⟩
          · exact utf8EncodeChar_lt less _ _
          · exact List.append_left_lt (ih less)

theorem utf8_lt {a b : String} (h : a < b) : utf8 a < utf8 b := by
  rw [utf8_eq_flatMap, utf8_eq_flatMap]
  exact flatMap_utf8EncodeChar_lt h

end TrustRoles.Text
