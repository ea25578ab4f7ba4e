import TrustRoles.Proofs.Files.Growth
import TrustRoles.Proofs.Files.Parent
import TrustRoles.Proofs.Settings.Kept

namespace TrustRoles

namespace FileSystem

variable {fs mid made : FileSystem} {p d : Path} {loc : Location} {n : Node} {content : List UInt8}

def placeOf (fs : FileSystem) (p : Path) : Location :=
  place (fs.start p) p.steps

def Encloses (target loc : Location) (n : Node) : Prop :=
  loc <+: target ∧ loc ≠ target ∧ n = .directory

def Saved (target : Location) (content : List UInt8) (loc : Location) (n : Node) : Prop :=
  loc = target ∧ n = .file content ∨ Encloses target loc n

theorem OnTheWay.encloses (start : fs.start d = fs.start p) {before rest : List String}
    {name : String} (steps : p.steps = before ++ name :: rest) (moves : name ≠ ".")
    (above : d.steps <+: before) (h : OnTheWay (fs.placeOf d) loc n) :
    Encloses (fs.placeOf p) loc n := by
  have reaches : loc <+: place (fs.start p) before := by
    have onWay := h.1
    rw [placeOf, start] at onWay
    exact onWay.trans (place_mono above)
  have split : fs.placeOf p =
      place (fs.start p) before ++ name :: rest.filter (fun step => step != ".") := by
    rw [placeOf, steps, place_append, place, List.filter_cons_of_pos (by simpa using moves)]
  refine ⟨reaches.trans ?_, ?_, h.2⟩
  · rw [split]
    exact List.prefix_append _ _
  · rintro rfl
    have longer := reaches.length_le
    rw [split, List.length_append, List.length_cons] at longer
    omega

theorem grows_parent (down : ".." ∉ p.steps) (h : p.parent? = some d) :
    Grows (Encloses (fs.placeOf p)) fs (fs.makeDirectories d).2 := by
  rcases Path.parent?_eq_some h with nowhere | ⟨same, before, name, rest, steps, moves, above⟩
  · rw [makeDirectories, nowhere]
    exact Grows.refl fs
  · have start : fs.start d = fs.start p := by
      rw [FileSystem.start, FileSystem.start, same]
    have down' : ".." ∉ d.steps := fun up =>
      down (steps ▸ List.mem_append_left _ (above.subset up))
    exact (grows_makeDirectories down').mono fun loc n new => new.encloses start steps moves above

theorem placeOf_concat {before : List String} {name : String} (steps : p.steps = before ++ [name])
    (moves : name ≠ ".") : fs.placeOf p = place (fs.start p) before ++ [name] := by
  rw [placeOf, steps, place_append, place_moving moves]

theorem find_placeOf (rooted : fs.Rooted) (down : ".." ∉ p.steps) (legal : checkPath p = .ok ())
    (noSlash : p.endsInSlash = false) {before : List String} {name : String}
    (steps : p.steps = before ++ [name]) (moves : name ≠ ".")
    (filed : fs.node? (fs.placeOf p) = some n) : fs.find p = .ok (fs.placeOf p, n) := by
  have split : fs.placeOf p = place (fs.start p) before ++ [name] := placeOf_concat steps moves
  have directory : fs.node? (place (fs.start p) before) = some .directory := by
    rw [split] at filed
    exact rooted.above filed (List.cons_ne_nil _ _)
  have down' : ".." ∉ before := fun up => down (steps ▸ List.mem_append_left _ up)
  have proper : isName name = true := isName_of_filed filed name (by simp [split])
  have walked : fs.walk (fs.start p) p.steps = .ok (fs.placeOf p) := by
    rw [steps, split]
    exact walk_concat (walk_place rooted down' directory) directory proper
  rw [find_of_walk legal walked, filed, noSlash]
  cases n <;> rfl

theorem grows_write (rooted : fs.Rooted) (absent : fs.isPresent p = false) (down : ".." ∉ p.steps)
    (before : Grows (Encloses (fs.placeOf p)) fs mid) (h : mid.write p content = .ok made) :
    Grows (Saved (fs.placeOf p) content) fs made := by
  obtain ⟨loc, way, name, writes⟩ := exists_writes h
  have down' : ".." ∉ way := fun up => down (writes.steps ▸ List.mem_append_left _ up)
  have moves : name ≠ "." := (isName_iff.mp writes.proper).2.1
  have start : mid.start p = fs.start p := by
    rw [FileSystem.start, FileSystem.start, before.here]
  obtain rfl := walk_plain down' writes.walked
  have target : place (mid.start p) way ++ [name] = fs.placeOf p := by
    rw [placeOf_concat writes.steps moves, start]
  have unfiled : fs.node? (fs.placeOf p) = none := by
    cases filed : fs.node? (fs.placeOf p) with
    | none => rfl
    | some n =>
        have found := find_placeOf rooted down writes.legal writes.noSlash writes.steps moves filed
        rw [isPresent, found] at absent
        cases absent
  have missing : mid.node? (place (mid.start p) way ++ [name]) = none := by
    rw [target]
    cases filed : mid.node? (fs.placeOf p) with
    | none => rfl
    | some n => exact absurd rfl (before.added _ n unfiled filed).2.1
  have written := grows_put (n := .file content) writes.directory missing
  rw [← writes.filed, target] at written
  exact (before.mono fun _ _ new => .inr new).trans (written.mono fun _ _ new => .inl new)

end FileSystem

namespace SettingsFile

open FileSystem (Grows Encloses Saved Rooted)

variable {f : SettingsFile} {s : Settings} {fs : FileSystem} {w : World}

theorem grows_writeOut (rooted : fs.Rooted) (absent : fs.isPresent f.path = false)
    (down : ".." ∉ f.path.steps)
    (before : Grows (Encloses (fs.placeOf f.path)) fs w.files) :
    Grows (Saved (fs.placeOf f.path) (Text.utf8 s.toText)) fs
      (World.run (f.writeOut s).run w).2.files := by
  rw [writeOut]
  cases written : w.files.write f.path (Text.utf8 s.toText) with
  | error e =>
      rw [World.run_write_bind_error written]
      exact before.mono fun _ _ new => .inr new
  | ok made =>
      rw [World.run_write_bind_ok written]
      exact FileSystem.grows_write rooted absent down before written

def saveWithin (f : SettingsFile) (s : Settings) (d : Path) :
    Except FileError Unit → DiskTask Unit
  | .error e => throw (failure "create config directory" d e)
  | .ok () => f.writeOut s

theorem save_cases (down : ".." ∉ f.path.steps) :
    (∃ e, (World.run (f.save s).run w).1 = .error e ∧
      Grows (Encloses (w.files.placeOf f.path)) w.files (World.run (f.save s).run w).2.files) ∨
    ∃ v, Grows (Encloses (w.files.placeOf f.path)) w.files v.files ∧
      World.run (f.save s).run w = World.run (f.writeOut s).run v := by
  rw [save, World.run_task_bind]
  let notices := w.notices ++ [.settingsSaving f.path]
  cases parent : f.path.parent? with
  | none => exact .inr ⟨⟨w.files, notices⟩, Grows.refl _, rfl⟩
  | some d =>
      have enclosing : Grows (Encloses (w.files.placeOf f.path)) w.files
          (w.files.makeDirectories d).2 := FileSystem.grows_parent down parent
      let v : World := ⟨(w.files.makeDirectories d).2, notices⟩
      change (∃ e, (World.run (saveWithin f s d (w.files.makeDirectories d).1).run v).1 = .error e ∧
          Grows _ _ (World.run (saveWithin f s d (w.files.makeDirectories d).1).run v).2.files) ∨
        ∃ u, Grows _ _ u.files ∧ World.run (saveWithin f s d (w.files.makeDirectories d).1).run v =
          World.run (f.writeOut s).run u
      cases (w.files.makeDirectories d).1 with
      | error e => exact .inl ⟨_, rfl, enclosing⟩
      | ok _ => exact .inr ⟨v, enclosing, rfl⟩

theorem grows_save (rooted : w.files.Rooted) (absent : w.files.isPresent f.path = false)
    (down : ".." ∉ f.path.steps) :
    Grows (Saved (w.files.placeOf f.path) (Text.utf8 s.toText)) w.files
      (World.run (f.save s).run w).2.files := by
  rcases save_cases (s := s) down with ⟨e, -, enclosing⟩ | ⟨v, enclosing, ran⟩
  · exact enclosing.mono fun _ _ new => .inr new
  · rw [ran]
    exact grows_writeOut rooted absent down enclosing

end SettingsFile

end TrustRoles
