import TrustRoles.Proofs.Session.Effect

namespace TrustRoles.Session

variable {α : Type} {s after : Session} {p : Nat}

inductive Moves (s : Session) : Session → Prop
  | keep {after : Session} (places : after.registry.places ⊆ s.registry.places)
      (number? : ∀ q, after.registry.number? q = s.registry.number? q)
      (next : s.registry.next ≤ after.registry.next) (memo : s.memo.Follows after.memo) :
      Moves s after
  | hold (wish : Nat) (name : String) (make : Nat → Source) : Moves s (s.holdNear wish name make)

theorem Keeps.moves (h : s.Keeps after) (memo : s.memo.Follows after.memo) : s.Moves after :=
  .keep h.places h.number? (Nat.le_of_eq h.next.symm) memo

theorem moves_refl (s : Session) : s.Moves s :=
  (Keeps.refl s).moves (.refl _)

theorem moves_update (s : Session) (p : Nat) (f : Source → Source) (w : World) {m : Memo}
    (memo : s.memo.Follows m) : s.Moves ⟨w, s.registry.update p f, m⟩ :=
  .keep (List.Subset.refl _) (s.registry.number?_update p f) (Nat.le_refl _) memo

theorem moves_access {name : String} {f : Nat → Option (Reply × Session)}
    (accessed : ∀ p, s.registry.alive p = true → ∀ r, f p = some r → s.Moves r.2) :
    s.Moves (s.access name f).2 := by
  rcases s.access_eq_or name f with idle | ⟨p, r, live, made, reached⟩
  · rw [idle]
    exact s.moves_refl
  · rw [reached]
    exact accessed p (Registry.alive_iff.mpr live) r made

theorem moves_consult {i : Consultation α} {r : α × Session}
    (consulted : s.consult p i = some r) : s.Moves r.2 := by
  obtain ⟨source, -, rfl⟩ := Option.map_eq_some_iff.mp consulted
  exact s.moves_update p _ _ (.refl _)

theorem moves_consult_memo {i : Consultation (α × Memo)}
    (follows : ∀ source : Source, s.memo.Follows (World.run (source.consult i) s.world).1.1.2)
    {r : α × Session} (consulted : ((s.consult p i).map fun r =>
      (r.1.1, { r.2 with memo := r.1.2 })) = some r) : s.Moves r.2 := by
  obtain ⟨asked, found, rfl⟩ := Option.map_eq_some_iff.mp consulted
  obtain ⟨source, -, rfl⟩ := Option.map_eq_some_iff.mp found
  exact s.moves_update p (fun _ => (World.run (source.consult i) s.world).1.2)
    (World.run (source.consult i) s.world).2 (follows source)

theorem moves_fetch (live : s.registry.alive p = true) {r : Except RoleFailure Filed × Session}
    (fetched : s.fetch p = some r) : s.Moves r.2 := by
  refine moves_consult_memo (fun source => ?_) fetched
  obtain ⟨outcome, m, kept, x, ran, fetched⟩ := Memo.exists_run_fetch live s.memo source s.world
  rw [ran]
  exact fetched.follows

theorem moves_step (s : Session) (st : Step) : s.Moves (s.step st).2 := by
  cases st with
  | create wish name members failsFrom failure => exact .hold wish name _
  | list wish name members => exact .hold wish name _
  | share name other => exact (s.keeps_share name other).moves (.refl _)
  | drop name => exact (s.keeps_drop name).moves (.refl _)
  | failFrom name n =>
      refine moves_access fun p _ r made => ?_
      obtain rfl := Option.some.inj made
      exact (s.keeps_failFrom p n).moves (.refl _)
  | fetch name =>
      refine moves_access fun p live r made => ?_
      obtain ⟨fetched, found, rfl⟩ := Option.map_eq_some_iff.mp made
      exact moves_fetch live found
  | peek name =>
      refine moves_access fun p _ r made => ?_
      obtain rfl := Option.some.inj made
      exact s.moves_refl
  | forget name =>
      refine moves_access fun p _ r made => ?_
      obtain rfl := Option.some.inj made
      refine (Keeps.of_registry (s.registry_forget p)).moves ?_
      rw [memo_forget]
      exact Memo.follows_forget ..
  | sweep =>
      refine (Keeps.of_registry s.registry_sweep).moves ?_
      rw [memo_sweep]
      exact Memo.follows_swept ..

theorem mem_places_of_moves (moves : s.Moves after) (slot : p ∈ s.memo.places)
    (live : p ∈ after.registry.places) : p ∈ s.registry.places := by
  cases moves with
  | keep places number? next memo => exact places live
  | hold wish name make =>
      refine (Registry.mem_places_bind live).resolve_left ?_
      rintro rfl
      exact (s.vacant_not_mem wish).2 slot

end TrustRoles.Session
