import TrustRoles.KeyUsage

namespace TrustRoles

namespace Usage

theorem getElem?_all (u : Usage) : all[u.index]? = some u := by
  cases u <;> rfl

theorem pairwise_all : all.Pairwise fun u v => u.index < v.index := by
  decide

theorem exists_index_eq {i : Nat} (h : i < 9) : ∃ u : Usage, u.index = i := by
  have named : ∀ j : Fin 9, ∃ u ∈ all, u.index = j := by decide
  obtain ⟨u, -, index⟩ := named ⟨i, h⟩
  exact ⟨u, index⟩

theorem toNat_bit (u : Usage) : u.bit.toNat = 1 <<< u.index := by
  cases u <;> rfl

def word (us : List Usage) : Nat :=
  us.foldl (fun w u => w ||| 1 <<< u.index) 0

theorem toNat_foldl_bit (us : List Usage) (b : BitVec 9) :
    (us.foldl (fun acc u => acc ||| u.bit) b).toNat =
      us.foldl (fun w u => w ||| 1 <<< u.index) b.toNat := by
  induction us generalizing b with
  | nil => rfl
  | cons u us ih => rw [List.foldl_cons, List.foldl_cons, ih, BitVec.toNat_or, toNat_bit]

theorem testBit_foldl (us : List Usage) (w i : Nat) :
    (us.foldl (fun w u => w ||| 1 <<< u.index) w).testBit i = true ↔
      w.testBit i = true ∨ ∃ u ∈ us, u.index = i := by
  induction us generalizing w with
  | nil => simp
  | cons u us ih =>
      rw [List.foldl_cons, ih, Nat.testBit_or, Bool.or_eq_true, Nat.one_shiftLeft,
        Nat.testBit_two_pow, decide_eq_true_eq, or_assoc]
      simp only [List.mem_cons, exists_eq_or_imp]

end Usage

namespace KeyUsage

variable {k r : KeyUsage}

theorem eq_iff_permits : k = r ↔ ∀ u, k.permits u = r.permits u := by
  constructor
  · rintro rfl u
    rfl
  · intro h
    have bits : k.bits = r.bits := BitVec.eq_of_getLsbD_eq fun i hi => by
      obtain ⟨u, rfl⟩ := Usage.exists_index_eq hi
      exact h u
    exact congrArg mk bits

theorem isEmpty_iff : k.isEmpty = true ↔ ∀ u, k.permits u = false := by
  have blank (u : Usage) : (⟨0⟩ : KeyUsage).permits u = false := BitVec.getLsbD_zero
  have empty : k.isEmpty = true ↔ k = ⟨0⟩ := beq_iff_eq.trans ⟨congrArg mk, congrArg bits⟩
  simp only [empty, eq_iff_permits, blank]

theorem covers_iff : k.covers r = true ↔ ∀ u, r.permits u = true → k.permits u = true := by
  have common (u : Usage) :
      (⟨k.bits &&& r.bits⟩ : KeyUsage).permits u = (k.permits u && r.permits u) :=
    BitVec.getLsbD_and
  -- the other set is covered if what it has in common with this one is all of it
  have covers : k.covers r = true ↔ (⟨k.bits &&& r.bits⟩ : KeyUsage) = r :=
    beq_iff_eq.trans ⟨congrArg mk, congrArg bits⟩
  simp only [covers, eq_iff_permits, common, Bool.and_eq_right_iff_imp]

theorem covers_only (k : KeyUsage) (u : Usage) : k.covers (only u) = k.permits u := by
  rw [Bool.eq_iff_iff, covers_iff]
  simp only [permits_only, decide_eq_true_eq, forall_eq']

theorem permits_ofMask (mask : Nat) (u : Usage) :
    (ofMask mask).permits u = mask.testBit u.index := by
  rw [permits, ofMask, BitVec.getLsbD_ofNat, decide_eq_true u.index_lt, Bool.true_and]

theorem ofMask_mask (k : KeyUsage) : ofMask k.mask = k :=
  eq_iff_permits.mpr (permits_ofMask k.mask)

theorem pairwise_toList (k : KeyUsage) : k.toList.Pairwise fun u v => u.index < v.index :=
  Usage.pairwise_all.filter _

theorem getElem?_toVector (k : KeyUsage) (u : Usage) : k.toVector[u.index]? = some (k.permits u) := by
  rw [toVector, List.getElem?_map, Usage.getElem?_all, Option.map_some]

theorem mask_ofList (us : List Usage) : (ofList us).mask = Usage.word us :=
  Usage.toNat_foldl_bit us 0

theorem testBit_mask_ofList {us : List Usage} {i : Nat} :
    (ofList us).mask.testBit i = true ↔ ∃ u ∈ us, u.index = i := by
  rw [mask_ofList, Usage.word, Usage.testBit_foldl, Nat.zero_testBit]
  simp

theorem permits_ofList {us : List Usage} {u : Usage} : (ofList us).permits u = true ↔ u ∈ us := by
  change (ofList us).mask.testBit u.index = true ↔ _
  rw [testBit_mask_ofList]
  constructor
  · rintro ⟨v, listed, index⟩
    exact Usage.index_injective index ▸ listed
  · intro listed
    exact ⟨u, listed, rfl⟩

theorem ofList_toList (k : KeyUsage) : ofList k.toList = k :=
  eq_iff_permits.mpr fun _ => Bool.eq_iff_iff.mpr (permits_ofList.trans mem_toList)

theorem ofList_eq_iff {us vs : List Usage} : ofList us = ofList vs ↔ ∀ u, u ∈ us ↔ u ∈ vs := by
  rw [eq_iff_permits]
  exact forall_congr' fun u => Bool.eq_iff_iff.trans (iff_congr permits_ofList permits_ofList)

theorem views_agree (l r : List Usage) :
    let k := ofList l
    (k.mask = Usage.word l ∧ ∀ i, k.mask.testBit i = true ↔ ∃ u ∈ l, u.index = i) ∧
    (k.toList.Pairwise (fun u v => u.index < v.index) ∧ ∀ u, u ∈ k.toList ↔ u ∈ l) ∧
    (k.toVector.length = 9 ∧
      ∀ u, (k.permits u = true ↔ u ∈ l) ∧ k.toVector[u.index]? = some (k.permits u)) ∧
    (ofList k.toList = k ∧ ofMask k.mask = k) ∧
    (k.covers (ofList r) = true ↔ ∀ u ∈ r, u ∈ l) ∧
    (k = ofList r ↔ ∀ u, u ∈ l ↔ u ∈ r) := by
  intro k
  refine ⟨⟨mask_ofList l, fun i => testBit_mask_ofList⟩, ⟨k.pairwise_toList, fun u => ?_⟩,
    ⟨rfl, fun u => ⟨permits_ofList, k.getElem?_toVector u⟩⟩, ⟨k.ofList_toList, k.ofMask_mask⟩, ?_,
    ofList_eq_iff⟩
  · exact mem_toList.trans permits_ofList
  · rw [covers_iff]
    simp only [k, permits_ofList]

end KeyUsage

end TrustRoles
