import Mathlib.Data.List.Basic
import TrustRoles.Proofs.Choice

namespace TrustRoles

namespace StandingTest

variable {n m : UInt32} {s : Standing}

theorem accepts_authorityWith_iff : (authorityWith n).accepts s = true ↔
    ∃ bound, s = .authority bound ∧ ∀ k ∈ bound, n.toNat ≤ k.toNat := by
  match s with
  | .endEntity => simp [accepts, Standing.allowance]
  | .authority none =>
      -- the highest number that can be asked for is the one that stands for unlimited
      have unlimited : n ≤ Standing.unlimited :=
        UInt32.le_iff_toNat_le.mpr (Nat.le_of_lt_succ n.toNat_lt)
      simp [accepts, Standing.allowance, unlimited]
  | .authority (some k) =>
      simp [accepts, Standing.allowance, UInt32.le_iff_toNat_le]

theorem accepts_of_le (h : n ≤ m) (hs : (authorityWith m).accepts s = true) :
    (authorityWith n).accepts s = true := by
  obtain ⟨bound, authority, enough⟩ := accepts_authorityWith_iff.mp hs
  refine accepts_authorityWith_iff.mpr ⟨bound, authority, fun k hk => ?_⟩
  exact Nat.le_trans (UInt32.le_iff_toNat_le.mp h) (enough k hk)

theorem accepts_of_lt (h : 255 < m) : (authorityWith m).accepts s = true ↔ s = .authority none := by
  have beyond : 255 < m.toNat := UInt32.lt_iff_toNat_lt.mp h
  rw [accepts_authorityWith_iff]
  constructor
  · rintro ⟨bound, rfl, enough⟩
    cases bound with
    | none => rfl
    | some k =>
        -- a path length is written in one byte
        have least : m.toNat ≤ k.toNat := enough k rfl
        have most : k.toNat < 256 := k.toNat_lt
        omega
  · rintro rfl
    exact ⟨none, rfl, nofun⟩

example : ([0, 255, 256, 4294967295].map fun n =>
    ((authorityWith n).accepts (.authority (some 255)), (authorityWith n).accepts (.authority none))) =
      [(true, true), (true, true), (false, true), (false, true)] := by
  decide

end StandingTest

namespace Criterion

theorem accepts_authorityWith (n : UInt32) (p : Profile) :
    (authorityWith n).accepts p = (StandingTest.authorityWith n).accepts p.standing :=
  Bool.and_true _

end Criterion

namespace Listing

variable {l : Listing} {n m : UInt32} {c : Member}

theorem mem_select {q : Criterion} : c ∈ l.select q ↔ c ∈ l.members ∧ q.accepts c.profile = true :=
  List.mem_filter

theorem mem_select_authorityWith : c ∈ l.select (.authorityWith n) ↔ c ∈ l.members ∧
    ∃ bound, c.profile.standing = .authority bound ∧ ∀ k ∈ bound, n.toNat ≤ k.toNat := by
  rw [mem_select, Criterion.accepts_authorityWith, StandingTest.accepts_authorityWith_iff]

theorem select_sublist (h : n ≤ m) (l : Listing) :
    (l.select (.authorityWith m)).Sublist (l.select (.authorityWith n)) := by
  refine List.monotone_filter_right _ fun c accepted => ?_
  rw [Criterion.accepts_authorityWith] at accepted ⊢
  exact StandingTest.accepts_of_le h accepted

theorem select_issuing (l : Listing) : l.select .issuing = l.members.filter Member.isAuthority :=
  List.filter_congr fun c _ => Criterion.accepts_issuing c.profile

theorem select_of_lt (h : 255 < m) (l : Listing) : l.select (.authorityWith m) =
    l.members.filter fun c => c.profile.standing = .authority none :=
  List.filter_congr fun c _ => by
    rw [Criterion.accepts_authorityWith, Bool.eq_iff_iff, StandingTest.accepts_of_lt h,
      decide_eq_true_iff]

theorem isAuthority_of_mem_select (h : c ∈ l.select (.authorityWith n)) : c.isAuthority = true := by
  obtain ⟨-, bound, standing, -⟩ := mem_select_authorityWith.mp h
  rw [Member.isAuthority, Profile.isAuthority, standing]
  rfl

theorem not_isAuthority_of_mem_select {u : Usage} (h : c ∈ l.select (.endEntityFor u)) :
    c.isAuthority = false := by
  have accepted := (mem_select.mp h).2
  rw [Criterion.accepts_endEntityFor] at accepted
  exact Profile.not_isAuthority_of_isFitFor accepted

theorem mem_select_of_unrestricted (listed : c ∈ l.members) (ending : c.isAuthority = false)
    (unrestricted : c.profile.keyUsage = none) (u : Usage) : c ∈ l.select (.endEntityFor u) := by
  refine mem_select.mpr ⟨listed, ?_⟩
  change c.profile.isAuthority = false at ending
  rw [Criterion.accepts_endEntityFor, Profile.isFitFor, unrestricted, ending]
  rfl

theorem answers_by_standing (l : Listing) :
    (∀ q w, World.run ((Source.listing l).answer q) w = ((.ok (l.select q), .listing l), w)) ∧
    (∀ n c, c ∈ l.select (.authorityWith n) ↔ c ∈ l.members ∧
      ∃ bound, c.profile.standing = .authority bound ∧ ∀ k ∈ bound, n.toNat ≤ k.toNat) ∧
    (∀ n m : UInt32, n ≤ m →
      (l.select (.authorityWith m)).Sublist (l.select (.authorityWith n))) ∧
    l.select .issuing = l.members.filter Member.isAuthority ∧
    (∀ m : UInt32, 255 < m → l.select (.authorityWith m) =
      l.members.filter fun c => c.profile.standing = .authority none) ∧
    (∀ u n, ∀ c ∈ l.select (.endEntityFor u), ∀ d ∈ l.select (.authorityWith n),
      c.profile ≠ d.profile) ∧
    ∀ c ∈ l.members, c.profile.keyUsage = none → c.isAuthority = false →
      ∀ u, c ∈ l.select (.endEntityFor u) := by
  refine ⟨fun q w => rfl, fun n c => mem_select_authorityWith, fun n m h => l.select_sublist h,
    l.select_issuing, fun m h => l.select_of_lt h, fun u n c hc d hd same => ?_,
    fun c listed unrestricted ending u => mem_select_of_unrestricted listed ending unrestricted u⟩
  have ending := not_isAuthority_of_mem_select hc
  rw [Member.isAuthority, same] at ending
  exact Bool.false_ne_true (ending.symm.trans (isAuthority_of_mem_select hd))

end Listing

end TrustRoles
