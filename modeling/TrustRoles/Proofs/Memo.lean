import TrustRoles.Memo
import TrustRoles.Proofs.Consultation

namespace TrustRoles.Memo

variable {α : Type}

theorem filed?_eq_none_of_not_mem {m : Memo} {p : Nat} (h : p ∉ m.places) : m.filed? p = none := by
  have absent : m.slots.find? (fun s => s.place == p) = none := by
    rw [List.find?_eq_none]
    intro s hs same
    exact h (List.mem_map.mpr ⟨s, hs, eq_of_beq same⟩)
  rw [filed?, absent]
  rfl

theorem size_eq (m : Memo) : m.size = m.places.length :=
  (List.length_map Slot.place).symm

theorem hasSlot_iff {m : Memo} {p : Nat} : m.hasSlot p = true ↔ p ∈ m.places := by
  simp [hasSlot, places]

theorem filed?_filter (m : Memo) (keep : Nat → Bool) (p : Nat) :
    ({ m with slots := m.slots.filter fun s => keep s.place } : Memo).filed? p =
      if keep p then m.filed? p else none := by
  have narrowed : (m.slots.filter fun s => keep s.place).find? (fun s => s.place == p) =
      if keep p then m.slots.find? (fun s => s.place == p) else none := by
    induction m.slots with
    | nil => simp
    | cons s slots ih =>
        by_cases same : s.place = p
        · cases hk : keep p with
          | true => simp [same, hk]
          | false => simpa [same, hk] using ih
        · cases hk : keep s.place with
          | true => simpa [same, hk] using ih
          | false => simpa [same, hk] using ih
  unfold filed?
  rw [narrowed]
  split <;> rfl

theorem filed?_swept (alive : Nat → Bool) (m : Memo) (p : Nat) :
    (m.swept alive).filed? p = if alive p then m.filed? p else none :=
  filed?_filter m alive p

theorem places_swept (alive : Nat → Bool) (m : Memo) :
    (m.swept alive).places = m.places.filter alive := by
  simp [places, swept, List.filter_map, Function.comp_def]

theorem filed?_reserve (m : Memo) (p q : Nat) : (m.reserve p).filed? q = m.filed? q := by
  unfold reserve
  split
  · rfl
  · unfold filed?
    rw [List.find?_append]
    cases m.slots.find? fun s => s.place == q with
    | some s => rfl
    | none => by_cases same : p = q <;> simp [same]

theorem mem_places_reserve {m : Memo} {p q : Nat} :
    q ∈ (m.reserve p).places ↔ q = p ∨ q ∈ m.places := by
  unfold reserve
  split
  · rename_i present
    constructor
    · exact Or.inr
    · rintro (rfl | h)
      · exact hasSlot_iff.mp present
      · exact h
  · simp [places, or_comm]

theorem issued_reserve (m : Memo) (p : Nat) : (m.reserve p).issued = m.issued := by
  unfold reserve
  split <;> rfl

theorem place_fill (p : Nat) (f : Filed) (s : Slot) :
    (if s.place = p then (⟨p, some f⟩ : Slot) else s).place = s.place := by
  split
  · rename_i same
    exact same.symm
  · rfl

theorem filed?_file {m : Memo} {p : Nat} (h : p ∈ m.places) (a : Assignment) (q : Nat) :
    (m.file p a).filed? q = if q = p then some ⟨m.issued, a⟩ else m.filed? q := by
  simp only [filed?, file, List.find?_map, Function.comp_def, place_fill]
  cases found : m.slots.find? fun s => s.place == q with
  | none =>
      have absent : q ≠ p := by
        rintro rfl
        obtain ⟨s, hs, same⟩ := List.mem_map.mp h
        exact List.find?_eq_none.mp found s hs (beq_iff_eq.mpr same)
      simp [absent]
  | some s =>
      have same : s.place = q := by simpa using List.find?_some found
      subst same
      by_cases hp : s.place = p <;> simp [hp]

theorem forget_eq_or (alive : Nat → Bool) (p : Nat) (m : Memo) :
    (m.forget alive p = (false, m) ∧ ¬(p ∈ m.places ∧ alive p = true)) ∨
    (m.forget alive p = (true, { m with slots := m.slots.filter fun s => s.place != p }) ∧
      p ∈ m.places ∧ alive p = true) := by
  unfold forget
  by_cases h : (m.hasSlot p && alive p) = true
  · rw [if_pos h]
    rw [Bool.and_eq_true, hasSlot_iff] at h
    exact .inr ⟨rfl, h⟩
  · rw [if_neg h]
    rw [Bool.and_eq_true, hasSlot_iff] at h
    exact .inl ⟨rfl, h⟩

theorem filed?_without (m : Memo) (p q : Nat) :
    ({ m with slots := m.slots.filter fun s => s.place != p } : Memo).filed? q =
      if q = p then none else m.filed? q := by
  rw [filed?_filter m (fun place => place != p)]
  by_cases same : q = p <;> simp [same]

theorem issued_forget (alive : Nat → Bool) (p : Nat) (m : Memo) :
    (m.forget alive p).2.issued = m.issued := by
  rcases forget_eq_or alive p m with ⟨forgot, -⟩ | ⟨forgot, -⟩ <;> rw [forgot]

theorem filed?_forget {alive : Nat → Bool} {p : Nat} (live : alive p = true) (m : Memo) (q : Nat) :
    (m.forget alive p).2.filed? q = if q = p then none else m.filed? q := by
  rcases forget_eq_or alive p m with ⟨forgot, absent⟩ | ⟨forgot, -⟩
  · have unfiled : m.filed? p = none := filed?_eq_none_of_not_mem fun mem => absent ⟨mem, live⟩
    rw [forgot]
    by_cases hq : q = p
    · rw [if_pos hq, hq, unfiled]
    · rw [if_neg hq]
  · rw [forgot]
    exact filed?_without m p q

theorem filed?_ready (alive : Nat → Bool) (p : Nat) (m : Memo) (q : Nat) :
    (m.ready alive p).filed? q = if alive q then m.filed? q else none := by
  rw [ready, filed?_reserve, filed?_swept]

theorem mem_places_ready {alive : Nat → Bool} {p : Nat} {m : Memo} {q : Nat} :
    q ∈ (m.ready alive p).places ↔ q = p ∨ q ∈ m.places ∧ alive q = true := by
  rw [ready, mem_places_reserve, places_swept, List.mem_filter]

theorem issued_ready (alive : Nat → Bool) (p : Nat) (m : Memo) :
    (m.ready alive p).issued = m.issued :=
  issued_reserve _ p

theorem run_fetch (alive : Nat → Bool) (p : Nat) (m : Memo) (source : Source) (w : World) :
    ∃ v, v.files = w.files ∧ World.run (source.consult (m.fetch alive p)) w =
      World.run (source.consult ((m.ready alive p).recallOrSearch p)) v := by
  unfold fetch noteSwept
  split
  · exact ⟨{ w with notices := w.notices ++ [.swept (m.sweep alive).1] }, rfl, rfl⟩
  · exact ⟨w, rfl, rfl⟩

def settled (m : Memo) (p : Nat) : Except RoleFailure Assignment → Memo
  | .error _ => m
  | .ok a => m.file p a

theorem run_search (m : Memo) (p : Nat) (source : Source) (w : World) :
    ∃ v r after x, v.files = w.files ∧
      World.run (source.consult Search.assignment.run) v = ((r, after), x) ∧
      World.run (source.consult (m.search p)) w =
        (((r.map (Filed.mk m.issued), m.settled p r), after), x) := by
  generalize hv : ({ w with notices := w.notices ++ [.resolving p] } : World) = v
  rcases searched : World.run (source.consult Search.assignment.run) v with ⟨⟨r, after⟩, x⟩
  refine ⟨v, r, after, x, hv ▸ rfl, searched, ?_⟩
  let finish (r : Except RoleFailure Assignment) : Consultation (Except RoleFailure Filed × Memo) :=
    match r with
    | .error e => pure (.error e, m)
    | .ok a => pure (.ok ⟨m.issued, a⟩, m.file p a)
  have noted : World.run (source.consult (m.search p)) w =
      World.run (source.consult (Search.assignment.run >>= finish)) v := hv ▸ rfl
  have split := Source.run_carryOut_bind Search.assignment.run finish source v
  unfold Source.consult at searched
  rw [searched] at split
  refine noted.trans (split.trans ?_)
  cases r with
  | error e => rfl
  | ok a => rfl

theorem recallOrSearch_of_filed {alive : Nat → Bool} {p : Nat} {m : Memo} {f : Filed}
    (live : alive p = true) (h : m.filed? p = some f) :
    (m.ready alive p).recallOrSearch p =
      Consultation.note (.recalled p) >>= fun _ => pure (.ok f, m.ready alive p) := by
  rw [recallOrSearch, filed?_ready, live, if_pos rfl, h]

theorem isSilent_fetch_of_filed {alive : Nat → Bool} {p : Nat} {m : Memo} {f : Filed}
    (live : alive p = true) (h : m.filed? p = some f) : (m.fetch alive p).IsSilent := by
  unfold fetch noteSwept
  rw [recallOrSearch_of_filed live h]
  split <;> trivial

theorem run_fetch_of_filed {alive : Nat → Bool} {p : Nat} {m : Memo} {f : Filed}
    (live : alive p = true) (h : m.filed? p = some f) (source : Source) (w : World) :
    ∃ v, v.files = w.files ∧ World.run (source.consult (m.fetch alive p)) w =
      (((.ok f, m.ready alive p), source), v) := by
  obtain ⟨v, files, run⟩ := run_fetch alive p m source w
  rw [recallOrSearch_of_filed live h] at run
  exact ⟨{ v with notices := v.notices ++ [.recalled p] }, files, run⟩

theorem run_fetch_of_not_filed (alive : Nat → Bool) {p : Nat} {m : Memo}
    (h : m.filed? p = none) (source : Source) (w : World) :
    ∃ v r after x, v.files = w.files ∧
      World.run (source.consult Search.assignment.run) v = ((r, after), x) ∧
      World.run (source.consult (m.fetch alive p)) w =
        (((r.map (Filed.mk m.issued), (m.ready alive p).settled p r), after), x) := by
  obtain ⟨u, files, run⟩ := run_fetch alive p m source w
  have searching : (m.ready alive p).recallOrSearch p = (m.ready alive p).search p := by
    rw [recallOrSearch, filed?_ready, h, ite_self]
  obtain ⟨v, r, after, x, same, searched, found⟩ := run_search (m.ready alive p) p source u
  rw [searching] at run
  rw [issued_ready] at found
  exact ⟨v, r, after, x, same.trans files, searched, run.trans found⟩

theorem places_reserve_of_not_mem {m : Memo} {p : Nat} (h : p ∉ m.places) :
    (m.reserve p).places = m.places ++ [p] := by
  rw [reserve, if_neg fun present => h (hasSlot_iff.mp present)]
  exact List.map_append

theorem nodup_places_reserve {m : Memo} (h : m.places.Nodup) (p : Nat) :
    (m.reserve p).places.Nodup := by
  by_cases present : p ∈ m.places
  · rwa [reserve, if_pos (hasSlot_iff.mpr present)]
  · rw [places_reserve_of_not_mem present, List.nodup_append]
    refine ⟨h, List.pairwise_singleton _ p, fun q hq r hr same => present ?_⟩
    rwa [← List.mem_singleton.mp hr, ← same]

theorem nodup_places_ready {m : Memo} (h : m.places.Nodup) (alive : Nat → Bool) (p : Nat) :
    (m.ready alive p).places.Nodup := by
  refine nodup_places_reserve ?_ p
  rw [places_swept]
  exact h.filter alive

theorem places_ready_of_mem {alive : Nat → Bool} {p : Nat} {m : Memo} (live : alive p = true)
    (h : p ∈ m.places) : (m.ready alive p).places = m.places.filter alive := by
  have swept : p ∈ (m.swept alive).places := by
    rw [places_swept]
    exact List.mem_filter.mpr ⟨h, live⟩
  rw [ready, reserve, if_pos (hasSlot_iff.mpr swept), places_swept]

theorem places_ready_of_not_mem {alive : Nat → Bool} {p : Nat} {m : Memo} (h : p ∉ m.places) :
    (m.ready alive p).places = m.places.filter alive ++ [p] := by
  have absent : p ∉ (m.swept alive).places := by
    rw [places_swept]
    exact fun mem => h (List.mem_filter.mp mem).1
  rw [ready, places_reserve_of_not_mem absent, places_swept]

theorem places_file (m : Memo) (p : Nat) (a : Assignment) : (m.file p a).places = m.places := by
  simp only [places, file, List.map_map, Function.comp_def, place_fill]

theorem places_settled (m : Memo) (p : Nat) (r : Except RoleFailure Assignment) :
    (m.settled p r).places = m.places := by
  cases r with
  | error e => rfl
  | ok a => exact m.places_file p a

theorem places_without (m : Memo) (p : Nat) :
    ({ m with slots := m.slots.filter fun s => s.place != p } : Memo).places =
      m.places.filter fun q => q != p := by
  simp [places, List.filter_map, Function.comp_def]

theorem forget_eq {alive : Nat → Bool} {p : Nat} (live : alive p = true) (m : Memo) :
    (m.forget alive p).1 = decide (p ∈ m.places) ∧
      (m.forget alive p).2.places = m.places.filter fun q => q != p := by
  rcases forget_eq_or alive p m with ⟨forgot, absent⟩ | ⟨forgot, present, -⟩
  · have missing : p ∉ m.places := fun mem => absent ⟨mem, live⟩
    rw [forgot]
    refine ⟨(decide_eq_false missing).symm, (List.filter_eq_self.mpr fun q hq => ?_).symm⟩
    rw [bne_iff_ne]
    rintro rfl
    exact missing hq
  · rw [forgot]
    exact ⟨(decide_eq_true present).symm, m.places_without p⟩

structure Follows (m after : Memo) : Prop where
  issued : m.issued ≤ after.issued
  filed : ∀ q f, after.filed? q = some f →
    m.filed? q = some f ∨ m.issued ≤ f.number ∧ f.number < after.issued
  nodup : m.places.Nodup → after.places.Nodup

theorem Follows.refl (m : Memo) : m.Follows m :=
  ⟨Nat.le_refl _, fun _ _ filed => .inl filed, fun nodup => nodup⟩

theorem Follows.trans {m n after : Memo} (first : m.Follows n) (second : n.Follows after) :
    m.Follows after where
  issued := Nat.le_trans first.issued second.issued
  filed q f filed := by
    rcases second.filed q f filed with before | ⟨late, below⟩
    · refine (first.filed q f before).imp_right fun ⟨late, below⟩ => ⟨late, ?_⟩
      exact Nat.lt_of_lt_of_le below second.issued
    · exact .inr ⟨Nat.le_trans first.issued late, below⟩
  nodup once := second.nodup (first.nodup once)

theorem follows_swept (alive : Nat → Bool) (m : Memo) : m.Follows (m.swept alive) where
  issued := Nat.le_refl _
  filed q f filed := by
    rw [filed?_swept] at filed
    exact .inl (Option.ite_none_right_eq_some.mp filed).2
  nodup once := places_swept alive m ▸ once.filter alive

theorem follows_reserve (m : Memo) (p : Nat) : m.Follows (m.reserve p) where
  issued := Nat.le_of_eq (m.issued_reserve p).symm
  filed q _ filed := .inl (m.filed?_reserve p q ▸ filed)
  nodup once := nodup_places_reserve once p

theorem follows_ready (alive : Nat → Bool) (p : Nat) (m : Memo) : m.Follows (m.ready alive p) :=
  (m.follows_swept alive).trans (follows_reserve _ p)

theorem follows_file {m : Memo} {p : Nat} (h : p ∈ m.places) (a : Assignment) :
    m.Follows (m.file p a) where
  issued := Nat.le_succ _
  filed q f filed := by
    rw [filed?_file h] at filed
    split at filed
    · obtain rfl := Option.some.inj filed
      exact .inr ⟨Nat.le_refl _, Nat.lt_succ_self _⟩
    · exact .inl filed
  nodup once := m.places_file p a ▸ once

theorem follows_forget (alive : Nat → Bool) (p : Nat) (m : Memo) :
    m.Follows (m.forget alive p).2 := by
  rcases forget_eq_or alive p m with ⟨forgot, -⟩ | ⟨forgot, -⟩ <;> rw [forgot]
  · exact .refl m
  · refine ⟨Nat.le_refl _, fun q f filed => .inl ?_, fun once => ?_⟩
    · rw [filed?_without] at filed
      exact (Option.ite_none_left_eq_some.mp filed).2
    · rw [places_without]
      exact once.filter _

inductive Fetched (alive : Nat → Bool) (p : Nat) (m : Memo) : Memo → Prop
  | ready : Fetched alive p m (m.ready alive p)
  | filed (a : Assignment) : Fetched alive p m ((m.ready alive p).file p a)

namespace Fetched

variable {alive : Nat → Bool} {p : Nat} {m after : Memo}

theorem places (h : Fetched alive p m after) : after.places = (m.ready alive p).places := by
  cases h with
  | ready => rfl
  | filed a => exact places_file ..

theorem follows (h : Fetched alive p m after) : m.Follows after := by
  cases h with
  | ready => exact follows_ready alive p m
  | filed a =>
      exact (follows_ready alive p m).trans (follows_file (mem_places_ready.mpr (.inl rfl)) a)

theorem filed?_of_ne (h : Fetched alive p m after) {q : Nat} (other : q ≠ p) {f : Filed}
    (filed : after.filed? q = some f) : m.filed? q = some f := by
  have found : (m.ready alive p).filed? q = some f := by
    cases h with
    | ready => exact filed
    | filed a =>
        rwa [filed?_file (mem_places_ready.mpr (.inl rfl)), if_neg other] at filed
  rw [filed?_ready] at found
  exact (Option.ite_none_right_eq_some.mp found).2

end Fetched

theorem exists_run_fetch {alive : Nat → Bool} {p : Nat} (live : alive p = true) (m : Memo)
    (source : Source) (w : World) :
    ∃ r after kept x, World.run (source.consult (m.fetch alive p)) w = (((r, after), kept), x) ∧
      Fetched alive p m after := by
  cases filed : m.filed? p with
  | some f =>
      obtain ⟨v, -, ran⟩ := run_fetch_of_filed live filed source w
      exact ⟨_, _, _, v, ran, .ready⟩
  | none =>
      obtain ⟨v, r, kept, x, -, -, ran⟩ := run_fetch_of_not_filed alive filed source w
      refine ⟨_, _, kept, x, ran, ?_⟩
      cases r with
      | error e => exact .ready
      | ok a => exact .filed a

end TrustRoles.Memo
