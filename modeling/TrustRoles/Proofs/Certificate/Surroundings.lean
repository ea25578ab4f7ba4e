import Mathlib.Data.List.DropRight
import TrustRoles.Proofs.Certificate.Bundle

namespace TrustRoles

open Der

namespace Pem

open Text

variable {bs text u v : List UInt8}

theorem trim_eq (bs : List UInt8) : trim bs = (bs.dropWhile isBlank).rdropWhile isBlank := rfl

theorem trim_surrounded (before : ∀ x ∈ u, isBlank x = true) (after : ∀ x ∈ v, isBlank x = true)
    (bs : List UInt8) : trim (u ++ bs ++ v) = trim bs := by
  rw [trim_eq, trim_eq, List.append_assoc, List.dropWhile_append_of_pos before,
    List.dropWhile_append]
  split
  · rename_i blank
    rw [List.isEmpty_iff.mp blank, List.dropWhile_eq_nil_iff.mpr after]
  · have behind : ∀ x ∈ v.reverse, isBlank x = true := fun x hx => after x (List.mem_reverse.mp hx)
    rw [List.rdropWhile, List.reverse_append, List.dropWhile_append_of_pos behind, List.rdropWhile]

theorem armor?_surrounded (before : ∀ x ∈ u, isBlank x = true) (after : ∀ x ∈ v, isBlank x = true)
    (bs : List UInt8) : armor? (u ++ bs ++ v) = armor? bs := by
  rw [armor?, armor?, trim_surrounded before after]

theorem trim_opening {front : List UInt8} (blank : ∀ x ∈ front, isBlank x = true)
    (tail : List UInt8) : trim (front ++ (ascii "-----BEGIN" ++ tail)) =
      ascii "-----BEGIN" ++ tail.rdropWhile isBlank := by
  have opens : (ascii "-----BEGIN" ++ tail).dropWhile isBlank = ascii "-----BEGIN" ++ tail := rfl
  have closes : (ascii "-----BEGIN").reverse.dropWhile isBlank = (ascii "-----BEGIN").reverse := rfl
  rw [trim_eq, List.dropWhile_append_of_pos blank, opens, List.rdropWhile, List.rdropWhile,
    List.reverse_append, List.dropWhile_append]
  split
  · rename_i ended
    rw [closes, List.reverse_reverse, List.isEmpty_iff.mp ended, List.reverse_nil, List.append_nil]
  · rw [List.reverse_append, List.reverse_reverse]

theorem exists_armor {front : List UInt8} (blank : ∀ x ∈ front, isBlank x = true)
    (tail : List UInt8) : ∃ text, armor? (front ++ (ascii "-----BEGIN" ++ tail)) = some text ∧
      (∃ first, text.head? = some first ∧ isBlank first = false) ∧
      ∃ last, text.getLast? = some last ∧ isBlank last = false := by
  have trimmed := trim_opening blank tail
  have marked : (after? (ascii "-----BEGIN")
      (ascii "-----BEGIN" ++ tail.rdropWhile isBlank)).isSome = true := by
    rw [after?_append]
    rfl
  refine ⟨ascii "-----BEGIN" ++ tail.rdropWhile isBlank, ?_, ⟨0x2d, rfl, rfl⟩, ?_⟩
  · rw [armor?, trimmed, if_pos marked]
  · have written : trim (front ++ (ascii "-----BEGIN" ++ tail)) ≠ [] := by
      rw [trimmed]
      exact List.cons_ne_nil _ _
    have last := List.rdropWhile_last_not isBlank _ written
    refine ⟨_, ?_, eq_false_of_ne_true last⟩
    rw [← trimmed]
    exact List.getLast?_eq_some_getLast written

end Pem

namespace Certificate

variable {d : List UInt8} {c c' : Certificate}

theorem eq_nil_of_ofDer?_append {more : List UInt8} (h : ofDer? d = some c)
    (longer : ofDer? (d ++ more) = some c') : more = [] := by
  obtain ⟨whole, _, _, outer, -⟩ := read_eq_some.mp (ofDer?_eq_some.mp h)
  obtain ⟨whole', _, _, outer', -⟩ := read_eq_some.mp (ofDer?_eq_some.mp longer)
  have continued := element?_append outer more
  rw [outer', List.nil_append] at continued
  exact (Prod.mk.inj (Option.some.inj continued)).2.symm

theorem ofDer?_append_eq_none {more : List UInt8} (h : ofDer? d = some c) (some' : more ≠ []) :
    ofDer? (d ++ more) = none := by
  rw [Option.eq_none_iff_forall_ne_some]
  exact fun c' longer => some' (eq_nil_of_ofDer?_append h longer)

theorem ofDer?_of_prefix_eq_none {p : List UInt8} (h : ofDer? d = some c) (begins : p <+: d)
    (proper : p ≠ d) : ofDer? p = none := by
  obtain ⟨more, rfl⟩ := begins
  rw [Option.eq_none_iff_forall_ne_some]
  rintro c' shorter
  rw [eq_nil_of_ofDer?_append shorter h, List.append_nil] at proper
  exact proper rfl

theorem ofDer?_blank_eq_none {b : UInt8} (blank : Pem.isBlank b = true) (bs : List UInt8) :
    ofDer? (b :: bs) = none := by
  rw [Option.eq_none_iff_forall_ne_some]
  rintro c' read
  obtain ⟨rest, same⟩ := exists_cons_of_ofDer? read
  rw [(List.cons.inj same).1] at blank
  cases blank

end Certificate

namespace Bundle

open Pem (armor? isBlank)
open Text (ascii)

variable {bs d : List UInt8} {c : Certificate}

theorem armor?_append_of_ofDer? (h : Certificate.ofDer? d = some c) (more : List UInt8) :
    armor? (d ++ more) = none := by
  obtain ⟨rest, rfl⟩ := Certificate.exists_cons_of_ofDer? h
  exact Pem.armor?_eq_none (by decide) (by decide) _

theorem armor?_of_start {p : List UInt8} (h : Certificate.ofDer? d = some c) (begins : p <+: d) :
    armor? p = none := by
  obtain ⟨rest, rfl⟩ := Certificate.exists_cons_of_ofDer? h
  cases p with
  | nil => rfl
  | cons b p =>
      obtain rfl : b = 0x30 := (List.cons_prefix_cons.mp begins).1
      exact Pem.armor?_eq_none (by decide) (by decide) _

section

variable [AttributeNames]

theorem profiles_congr {bs bs' text : List UInt8} (h : armor? bs = some text)
    (h' : armor? bs' = some text) : profiles bs = profiles bs' := by
  rw [profiles, profiles, certificates?, certificates?, defect, defect, h, h']

theorem profiles_undecodable (bare : armor? bs = none) (h : Certificate.ofDer? bs = none) :
    profiles bs = .error (.encoding (.certificate bs)) := by
  rw [profiles, certificates?, defect, bare, h]
  rfl

theorem exists_ofDer?_of_profiles {ps : List Profile} (bare : armor? d = none)
    (h : profiles d = .ok ps) : ∃ c, Certificate.ofDer? d = some c := by
  cases read : Certificate.ofDer? d with
  | none =>
      rw [profiles_undecodable bare read] at h
      cases h
  | some c => exact ⟨c, rfl⟩

theorem surroundings :
    (∀ u v front tail : List UInt8, (∀ x ∈ u, isBlank x = true) → (∀ x ∈ v, isBlank x = true) →
      (∀ x ∈ front, isBlank x = true) →
      let b := front ++ (ascii "-----BEGIN" ++ tail)
      profiles (u ++ b ++ v) = profiles b ∧
      ∃ text, armor? (u ++ b ++ v) = some text ∧ armor? b = some text ∧ text ≠ [] ∧
        (∃ first, text.head? = some first ∧ isBlank first = false) ∧
        ∃ last, text.getLast? = some last ∧ isBlank last = false) ∧
    ∀ d ps, armor? d = none → profiles d = .ok ps →
      (∀ u, u ≠ [] → (∀ x ∈ u, isBlank x = true) →
        profiles (u ++ d) = .error (.encoding (.certificate (u ++ d)))) ∧
      (∀ v, v ≠ [] → profiles (d ++ v) = .error (.encoding (.certificate (d ++ v)))) ∧
      ∀ p, p <+: d → p ≠ d → profiles p = .error (.encoding (.certificate p)) := by
  constructor
  · intro u v front tail before after blank b
    obtain ⟨text, armored, begins, ends⟩ := Pem.exists_armor blank tail
    have surrounded : armor? (u ++ b ++ v) = some text :=
      (Pem.armor?_surrounded before after b).trans armored
    refine ⟨profiles_congr surrounded armored, text, surrounded, armored, ?_, begins, ends⟩
    rintro rfl
    obtain ⟨first, none, -⟩ := begins
    cases none
  · intro d ps bare accepted
    obtain ⟨c, read⟩ := exists_ofDer?_of_profiles bare accepted
    refine ⟨fun u some' blank => ?_, fun v some' => ?_, fun p begins proper => ?_⟩
    · have unarmored : armor? (u ++ d) = none := by
        have same := Pem.armor?_surrounded blank (List.forall_mem_nil _) d
        rwa [List.append_nil, bare] at same
      obtain ⟨b, u, rfl⟩ := List.exists_cons_of_ne_nil some'
      exact profiles_undecodable unarmored
        (Certificate.ofDer?_blank_eq_none (blank b (List.mem_cons_self ..)) (u ++ d))
    · exact profiles_undecodable (armor?_append_of_ofDer? read v)
        (Certificate.ofDer?_append_eq_none read some')
    · exact profiles_undecodable (armor?_of_start read begins)
        (Certificate.ofDer?_of_prefix_eq_none read begins proper)

end

theorem surroundings_of_leaf :
    profiles (ascii "\t\r\n" ++ Pem.encode (leaf []) ++ ascii " \n") = .ok [leafProfile] ∧
      profiles (leaf []) = .ok [leafProfile] ∧
      profiles (ascii "\n" ++ leaf []) =
        .error (.encoding (.certificate (ascii "\n" ++ leaf []))) ∧
      profiles (leaf [] ++ ascii "\n") =
        .error (.encoding (.certificate (leaf [] ++ ascii "\n"))) ∧
      profiles (leaf []).dropLast = .error (.encoding (.certificate (leaf []).dropLast)) := by
  have read : Certificate.ofDer? (leaf []) = some leafContent := by decide +kernel
  have strict : Certificate.read false (leaf []) = some (leafContent, []) := by decide +kernel
  have decoded := ofDer_leaf read
  have single : profiles (Pem.encode (leaf [])) = .ok [leafProfile] := by
    have ordered := List.forall_mem_singleton.mpr ((Certificate.inOrder_iff read).mpr strict)
    have each : [leaf []].map Profile.ofDer = [leafProfile].map .ok := by
      rw [List.map_singleton, decoded, List.map_singleton]
    have bundled := profiles_of_inOrder (List.cons_ne_nil _ []) each ordered
    rwa [List.flatMap_singleton] at bundled
  have opens : [] ++ (ascii "-----BEGIN" ++ (Pem.encode (leaf [])).drop 10) =
      Pem.encode (leaf []) := by decide +kernel
  have wrapped := (surroundings.1 (ascii "\t\r\n") (ascii " \n") []
    ((Pem.encode (leaf [])).drop 10) (by decide +kernel) (by decide +kernel) (by decide +kernel)).1
  rw [opens, single] at wrapped
  have accepted := profiles_der decoded
  have bare := armor?_of_start read (List.prefix_refl _)
  obtain ⟨before, after, cut⟩ := surroundings.2 (leaf []) [leafProfile] bare accepted
  exact ⟨wrapped, accepted, before (ascii "\n") (by decide +kernel) (by decide +kernel),
    after (ascii "\n") (by decide +kernel), cut (leaf []).dropLast (List.dropLast_prefix _)
      (by decide +kernel)⟩

end Bundle

end TrustRoles
