import TrustRoles.Base64

namespace TrustRoles.Base64

def IsDigit (b : UInt8) : Prop :=
  ∃ n, n < 64 ∧ b = digit n

theorem value?_digit : ∀ n, n < 64 → value? (digit n) = some n := by
  decide

theorem digit_ne_padding : ∀ n, n < 64 → digit n ≠ padding := by
  decide

theorem mem_encode {bs : List UInt8} {x : UInt8} (h : x ∈ encode bs) : IsDigit x ∨ x = padding := by
  induction bs using encode.induct with
  | case1 => cases h
  | case2 a =>
      have := a.toNat_lt
      simp only [encode, List.mem_cons, List.not_mem_nil, or_false] at h
      rcases h with rfl | rfl | rfl | rfl
      · exact .inl ⟨_, by omega, rfl⟩
      · exact .inl ⟨_, by omega, rfl⟩
      · exact .inr rfl
      · exact .inr rfl
  | case3 a b =>
      have := a.toNat_lt
      have := b.toNat_lt
      simp only [encode, List.mem_cons, List.not_mem_nil, or_false] at h
      rcases h with rfl | rfl | rfl | rfl
      · exact .inl ⟨_, by omega, rfl⟩
      · exact .inl ⟨_, by omega, rfl⟩
      · exact .inl ⟨_, by omega, rfl⟩
      · exact .inr rfl
  | case4 a b c rest ih =>
      have := a.toNat_lt
      have := b.toNat_lt
      have := c.toNat_lt
      simp only [encode, List.mem_cons] at h
      rcases h with rfl | rfl | rfl | rfl | h
      · exact .inl ⟨_, by omega, rfl⟩
      · exact .inl ⟨_, by omega, rfl⟩
      · exact .inl ⟨_, by omega, rfl⟩
      · exact .inl ⟨_, by omega, rfl⟩
      · exact ih h

theorem encode_ne_nil {bs : List UInt8} (h : bs ≠ []) : encode bs ≠ [] := by
  cases bs using encode.fun_cases with
  | case1 => exact absurd rfl h
  | case2 a => exact List.cons_ne_nil _ _
  | case3 a b => exact List.cons_ne_nil _ _
  | case4 a b c rest => exact List.cons_ne_nil _ _

theorem ofNat_eq {n : Nat} {b : UInt8} (h : n = b.toNat) : UInt8.ofNat n = b := by
  rw [h, UInt8.ofNat_toNat]

theorem oneByte?_digits (a : UInt8) :
    oneByte? (digit (a.toNat / 4)) (digit (a.toNat % 4 * 16)) = some [a] := by
  have := a.toNat_lt
  have aligned : a.toNat % 4 * 16 % 16 = 0 := by omega
  have whole : a.toNat / 4 * 4 + a.toNat % 4 * 16 / 16 = a.toNat := by omega
  simp only [oneByte?, value?_digit _ (show a.toNat / 4 < 64 by omega),
    value?_digit _ (show a.toNat % 4 * 16 < 64 by omega), Option.bind_eq_bind, Option.bind_some,
    if_pos aligned, ofNat_eq whole]

theorem twoBytes?_digits (a b : UInt8) :
    twoBytes? (digit (a.toNat / 4)) (digit (a.toNat % 4 * 16 + b.toNat / 16))
      (digit (b.toNat % 16 * 4)) = some [a, b] := by
  have := a.toNat_lt
  have := b.toNat_lt
  have aligned : b.toNat % 16 * 4 % 4 = 0 := by omega
  have first : a.toNat / 4 * 4 + (a.toNat % 4 * 16 + b.toNat / 16) / 16 = a.toNat := by omega
  have second : (a.toNat % 4 * 16 + b.toNat / 16) % 16 * 16 + b.toNat % 16 * 4 / 4 = b.toNat := by
    omega
  simp only [twoBytes?, value?_digit _ (show a.toNat / 4 < 64 by omega),
    value?_digit _ (show a.toNat % 4 * 16 + b.toNat / 16 < 64 by omega),
    value?_digit _ (show b.toNat % 16 * 4 < 64 by omega), Option.bind_eq_bind, Option.bind_some,
    if_pos aligned, ofNat_eq first, ofNat_eq second]

theorem threeBytes?_digits (a b c : UInt8) :
    threeBytes? (digit (a.toNat / 4)) (digit (a.toNat % 4 * 16 + b.toNat / 16))
      (digit (b.toNat % 16 * 4 + c.toNat / 64)) (digit (c.toNat % 64)) = some [a, b, c] := by
  have := a.toNat_lt
  have := b.toNat_lt
  have := c.toNat_lt
  have first : a.toNat / 4 * 4 + (a.toNat % 4 * 16 + b.toNat / 16) / 16 = a.toNat := by omega
  have second : (a.toNat % 4 * 16 + b.toNat / 16) % 16 * 16 +
      (b.toNat % 16 * 4 + c.toNat / 64) / 4 = b.toNat := by omega
  have third : (b.toNat % 16 * 4 + c.toNat / 64) % 4 * 64 + c.toNat % 64 = c.toNat := by omega
  simp only [threeBytes?, value?_digit _ (show a.toNat / 4 < 64 by omega),
    value?_digit _ (show a.toNat % 4 * 16 + b.toNat / 16 < 64 by omega),
    value?_digit _ (show b.toNat % 16 * 4 + c.toNat / 64 < 64 by omega),
    value?_digit _ (show c.toNat % 64 < 64 by omega), Option.bind_eq_bind, Option.bind_some,
    ofNat_eq first, ofNat_eq second, ofNat_eq third]

theorem decode?_group {p q r s : UInt8} (h : s ≠ padding) (rest : List UInt8) :
    decode? (p :: q :: r :: s :: rest) =
      (threeBytes? p q r s).bind fun front => (decode? rest).map fun back => front ++ back := by
  cases rest with
  | nil =>
      change lastBytes? p q r s = _
      rw [lastBytes?, if_neg h]
      cases threeBytes? p q r s with
      | none => rfl
      | some front => exact congrArg some (List.append_nil front).symm
  | cons t rest =>
      rw [decode?]
      · cases threeBytes? p q r s with
        | none => rfl
        | some front => cases decode? (t :: rest) <;> rfl
      · intro h
        cases h

theorem decode?_encode (bs : List UInt8) : decode? (encode bs) = some bs := by
  induction bs using encode.induct with
  | case1 => rfl
  | case2 a => exact oneByte?_digits a
  | case3 a b =>
      have := b.toNat_lt
      rw [encode, decode?, lastBytes?, if_pos rfl, if_neg (digit_ne_padding _ (by omega))]
      exact twoBytes?_digits a b
  | case4 a b c rest ih =>
      rw [encode, decode?_group (digit_ne_padding _ (by omega)), threeBytes?_digits, ih]
      rfl

end TrustRoles.Base64
