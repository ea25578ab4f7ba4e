namespace TrustRoles

structure Holding (κ : Type) where
  number : Nat
  state : κ

structure Registry (κ : Type) where
  names : List (String × Nat)
  held : List (Nat × Holding κ)
  next : Nat

namespace Registry

variable {κ : Type}

def empty : Registry κ := ⟨[], [], 0⟩

def holder? (r : Registry κ) (name : String) : Option Nat :=
  r.names.lookup name

def places (r : Registry κ) : List Nat :=
  r.names.map Prod.snd

def references (r : Registry κ) (place : Nat) : Nat :=
  r.places.count place

def alive (r : Registry κ) (place : Nat) : Bool :=
  r.places.contains place

def holding? (r : Registry κ) (place : Nat) : Option (Holding κ) :=
  r.held.lookup place

def number? (r : Registry κ) (place : Nat) : Option Nat :=
  (r.holding? place).map Holding.number

def state? (r : Registry κ) (place : Nat) : Option κ :=
  (r.holding? place).map Holding.state

def vacant (r : Registry κ) (pinned : List Nat) (wish : Nat) : Nat :=
  let taken := r.places ++ pinned
  if taken.contains wish then taken.foldr max 0 + 1 else wish

def drop (r : Registry κ) (name : String) : Registry κ :=
  { r with names := r.names.filter fun e => e.1 != name }

def bind (r : Registry κ) (name : String) (place : Nat) : Registry κ :=
  { r with names := (r.drop name).names ++ [(name, place)] }

def hold (r : Registry κ) (name : String) (place : Nat) (make : Nat → κ) : Registry κ :=
  { r.bind name place with
    held := (place, ⟨r.next, make r.next⟩) :: r.held.filter fun e => e.1 != place
    next := r.next + 1 }

def skip (r : Registry κ) : Registry κ :=
  { r with next := r.next + 1 }

def share (r : Registry κ) (name other : String) : Registry κ :=
  match r.holder? name with
  | none => r
  | some place => r.bind other place

def update (r : Registry κ) (place : Nat) (f : κ → κ) : Registry κ :=
  { r with held := r.held.map fun e =>
      (e.1, if e.1 = place then { e.2 with state := f e.2.state } else e.2) }

theorem lookup_filter_ne {ι β : Type} [BEq ι] [LawfulBEq ι] (l : List (ι × β)) {i j : ι}
    (h : i ≠ j) : (l.filter fun e => e.1 != j).lookup i = l.lookup i := by
  induction l with
  | nil => rfl
  | cons e l ih =>
      obtain ⟨k, b⟩ := e
      by_cases hk : k = j
      · subst hk
        have hi : (i == k) = false := by simpa using h
        rw [List.filter_cons_of_neg (by simp), ih, List.lookup_cons, hi]
      · rw [List.filter_cons_of_pos (by simpa using hk), List.lookup_cons, List.lookup_cons, ih]

theorem mem_places_of_holder? {r : Registry κ} {name : String} {p : Nat}
    (h : r.holder? name = some p) : p ∈ r.places := by
  obtain ⟨before, after, split, -⟩ := List.lookup_eq_some_iff.mp h
  simp [places, split]

theorem alive_iff {r : Registry κ} {p : Nat} : r.alive p = true ↔ p ∈ r.places := by
  simp [alive]

theorem le_foldr_max {l : List Nat} {n : Nat} (h : n ∈ l) : n ≤ l.foldr max 0 := by
  induction l with
  | nil => cases h
  | cons m l ih =>
      rw [List.foldr_cons]
      rcases List.mem_cons.mp h with rfl | h
      · exact Nat.le_max_left ..
      · exact Nat.le_trans (ih h) (Nat.le_max_right ..)

theorem vacant_not_mem (r : Registry κ) (pinned : List Nat) (wish : Nat) :
    r.vacant pinned wish ∉ r.places ++ pinned := by
  unfold vacant
  simp only [List.contains_iff_mem]
  split
  · intro taken
    exact Nat.not_succ_le_self _ (le_foldr_max taken)
  · assumption

theorem vacant_of_free {r : Registry κ} {pinned : List Nat} {wish : Nat}
    (h : wish ∉ r.places ++ pinned) : r.vacant pinned wish = wish := by
  simp only [vacant, List.contains_iff_mem, if_neg h]

theorem places_drop (r : Registry κ) (name : String) : (r.drop name).places ⊆ r.places :=
  List.map_subset _ List.filter_sublist.subset

theorem mem_places_bind {r : Registry κ} {name : String} {p q : Nat}
    (h : q ∈ (r.bind name p).places) : q = p ∨ q ∈ r.places := by
  simp only [places, bind, List.map_append, List.map_cons, List.map_nil, List.mem_append,
    List.mem_singleton] at h
  exact h.symm.imp_right fun old => r.places_drop name old

theorem mem_places_share {r : Registry κ} {name other : String} {q : Nat}
    (h : q ∈ (r.share name other).places) : q ∈ r.places := by
  unfold share at h
  cases hn : r.holder? name with
  | none => simpa [hn] using h
  | some p =>
      rw [hn] at h
      rcases mem_places_bind h with rfl | old
      · exact mem_places_of_holder? hn
      · exact old

theorem holding?_share (r : Registry κ) (name other : String) (q : Nat) :
    (r.share name other).holding? q = r.holding? q := by
  unfold share
  cases r.holder? name with
  | none => rfl
  | some p => rfl

theorem next_share (r : Registry κ) (name other : String) : (r.share name other).next = r.next := by
  unfold share
  cases r.holder? name with
  | none => rfl
  | some p => rfl

theorem holding?_hold (r : Registry κ) (name : String) (p : Nat) (make : Nat → κ) (q : Nat) :
    (r.hold name p make).holding? q =
      if q = p then some ⟨r.next, make r.next⟩ else r.holding? q := by
  simp only [holding?, hold, List.lookup_cons]
  by_cases hq : q = p
  · simp [hq]
  · have other : (q == p) = false := by simpa using hq
    simp [hq, other, lookup_filter_ne _ hq]

theorem number?_of_state? {r : Registry κ} {p : Nat} {state : κ} (h : r.state? p = some state) :
    ∃ k, r.number? p = some k := by
  obtain ⟨holding, held, -⟩ := Option.map_eq_some_iff.mp h
  exact ⟨holding.number, congrArg (Option.map Holding.number) held⟩

theorem number?_hold (r : Registry κ) (name : String) (p : Nat) (make : Nat → κ) (q : Nat) :
    (r.hold name p make).number? q = if q = p then some r.next else r.number? q := by
  rw [number?, holding?_hold]
  split <;> rfl

theorem state?_hold (r : Registry κ) (name : String) (p : Nat) (make : Nat → κ) (q : Nat) :
    (r.hold name p make).state? q = if q = p then some (make r.next) else r.state? q := by
  rw [state?, holding?_hold]
  split <;> rfl

theorem lookup_map_keyed {ι β γ : Type} [BEq ι] [LawfulBEq ι] (l : List (ι × β)) (f : ι → β → γ)
    (i : ι) : (l.map fun e => (e.1, f e.1 e.2)).lookup i = (l.lookup i).map (f i) := by
  induction l with
  | nil => rfl
  | cons e l ih =>
      obtain ⟨k, b⟩ := e
      rw [List.map_cons, List.lookup_cons, List.lookup_cons, ih]
      cases hk : i == k with
      | true => rw [eq_of_beq hk]; rfl
      | false => rfl

theorem holding?_update (r : Registry κ) (p : Nat) (f : κ → κ) (q : Nat) :
    (r.update p f).holding? q = (r.holding? q).map fun h =>
      if q = p then { h with state := f h.state } else h :=
  lookup_map_keyed r.held (fun place h => if place = p then Holding.mk h.number (f h.state) else h) q

theorem number?_update (r : Registry κ) (p : Nat) (f : κ → κ) (q : Nat) :
    (r.update p f).number? q = r.number? q := by
  simp only [number?, holding?_update, Option.map_map]
  congr 1
  funext h
  simp only [Function.comp_apply]
  split <;> rfl

theorem state?_update (r : Registry κ) (p : Nat) (f : κ → κ) (q : Nat) :
    (r.update p f).state? q = (r.state? q).map fun state => if q = p then f state else state := by
  simp only [state?, holding?_update, Option.map_map]
  congr 1
  funext h
  simp only [Function.comp_apply]
  split <;> rfl

theorem state?_update_of_state? {r : Registry κ} {p : Nat} {state : κ} (h : r.state? p = some state) :
    (r.update p fun _ => state).state? = r.state? := by
  funext q
  rw [state?_update]
  by_cases hq : q = p
  · rw [hq, h, Option.map_some, if_pos rfl]
  · simp only [if_neg hq, Option.map_id']

end Registry

end TrustRoles
