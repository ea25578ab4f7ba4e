import TrustRoles.Proofs.Files.Written

namespace TrustRoles.FileSystem

variable {fs mid after made : FileSystem} {loc origin : Location} {name : String}
  {steps reversed : List String} {n : Node} {p : Path} {content : List UInt8}

def Rooted (fs : FileSystem) : Prop :=
  ∀ e ∈ fs.nodes, fs.node? e.1.dropLast = some .directory

instance : Decidable fs.Rooted :=
  inferInstanceAs (Decidable (∀ e ∈ fs.nodes, fs.node? e.1.dropLast = some .directory))

theorem rooted_iff :
    fs.Rooted ↔ ∀ loc n, fs.node? loc = some n → fs.node? loc.dropLast = some .directory := by
  constructor
  · intro rooted loc n filed
    cases loc with
    | nil => rfl
    | cons step loc => exact rooted (step :: loc, n) (lookup_eq_some_iff.mp filed)
  · rintro rooted ⟨loc, n⟩ among
    cases loc with
    | nil => rfl
    | cons step loc => exact rooted (step :: loc) n (lookup_eq_some_iff.mpr among)

theorem Rooted.above {below : List String} (h : fs.Rooted)
    (filed : fs.node? (loc ++ below) = some n) (deep : below ≠ []) :
    fs.node? loc = some .directory := by
  have container {at_ : Location} {name : String} {m : Node}
      (filed : fs.node? (at_ ++ [name]) = some m) : fs.node? at_ = some .directory := by
    have directory := rooted_iff.mp h _ _ filed
    rwa [List.dropLast_concat] at directory
  induction below generalizing loc with
  | nil => exact absurd rfl deep
  | cons name below ih =>
      rw [List.append_cons] at filed
      cases below with
      | nil =>
          rw [List.append_nil] at filed
          exact container filed
      | cons other below => exact container (ih filed (List.cons_ne_nil _ _))

structure Grows (new : Location → Node → Prop) (fs after : FileSystem) : Prop where
  here : after.workingDirectory = fs.workingDirectory
  kept : ∀ loc n, fs.node? loc = some n → after.node? loc = some n
  added : ∀ loc n, fs.node? loc = none → after.node? loc = some n → new loc n
  rooted : fs.Rooted → after.Rooted

namespace Grows

variable {new more : Location → Node → Prop}

theorem refl (fs : FileSystem) : Grows new fs fs where
  here := rfl
  kept _ _ filed := filed
  added loc n missing filed := by
    rw [missing] at filed
    cases filed
  rooted h := h

theorem trans (h : Grows new fs mid) (h' : Grows new mid after) : Grows new fs after where
  here := h'.here.trans h.here
  kept loc n filed := h'.kept loc n (h.kept loc n filed)
  added loc n missing filed := by
    cases between : mid.node? loc with
    | none => exact h'.added loc n between filed
    | some m =>
        obtain rfl : m = n := Option.some.inj ((h'.kept loc m between).symm.trans filed)
        exact h.added loc m missing between
  rooted rooted := h'.rooted (h.rooted rooted)

theorem mono (h : Grows new fs after) (wider : ∀ loc n, new loc n → more loc n) :
    Grows more fs after :=
  { h with added := fun loc n missing filed => wider loc n (h.added loc n missing filed) }

end Grows

theorem put_concat (fs : FileSystem) (loc : Location) (name : String) (n : Node) :
    fs.put (loc ++ [name]) n = fs ∨ ∀ other, (fs.put (loc ++ [name]) n).node? other =
      if other = loc ++ [name] then some n else fs.node? other := by
  by_cases proper : ∀ step ∈ loc ++ [name], isName step = true
  · exact .inr (node?_put (List.concat_ne_nil name loc) proper n)
  · exact .inl (dif_neg proper)

theorem rooted_put (h : fs.Rooted) (directory : fs.node? loc = some .directory)
    (free : fs.node? (loc ++ [name]) ≠ some .directory) : (fs.put (loc ++ [name]) n).Rooted := by
  rcases put_concat fs loc name n with same | filed
  · rwa [same]
  · have stays {at_ : Location} (held : fs.node? at_ = some .directory) :
        (fs.put (loc ++ [name]) n).node? at_ = some .directory := by
      rw [filed, if_neg, held]
      rintro rfl
      exact free held
    refine rooted_iff.mpr fun at_ m found => ?_
    rw [filed] at found
    split at found
    case isTrue same =>
      subst same
      rw [List.dropLast_concat]
      exact stays directory
    case isFalse => exact stays (rooted_iff.mp h at_ m found)

theorem grows_put (directory : fs.node? loc = some .directory)
    (missing : fs.node? (loc ++ [name]) = none) :
    Grows (fun at_ m => at_ = loc ++ [name] ∧ m = n) fs (fs.put (loc ++ [name]) n) := by
  rcases put_concat fs loc name n with same | filed
  · rw [same]
    exact Grows.refl fs
  · refine ⟨workingDirectory_put fs _ n, fun at_ m held => ?_, fun at_ m unheld found => ?_,
      fun h => rooted_put h directory fun held => by cases missing.symm.trans held⟩
    · rw [filed, if_neg, held]
      rintro rfl
      cases missing.symm.trans held
    · rw [filed] at found
      split at found
      case isTrue same => exact ⟨same, (Option.some.inj found).symm⟩
      case isFalse => cases unheld.symm.trans found

theorem node?_of_write (h : fs.write p content = .ok made) :
    (fs.Rooted → made.Rooted) ∧
    (∀ loc n, fs.node? loc = some n →
      made.node? loc = some n ∨ n ≠ .directory ∧ fs.find p = .ok (loc, n)) ∧
    ∀ loc n, fs.node? loc = none → made.node? loc = some n → made.find p = .ok (loc, n) := by
  obtain ⟨at_, before, name, writes⟩ := exists_writes h
  have filed := node?_of_writes writes
  refine ⟨fun rooted => ?_, fun loc n held => ?_, fun loc n missing held => ?_⟩
  · rw [writes.filed]
    exact rooted_put rooted writes.directory writes.free
  · by_cases target : loc = at_ ++ [name]
    · subst target
      have walked : fs.walk (fs.start p) p.steps = .ok (at_ ++ [name]) := by
        rw [writes.steps]
        exact walk_concat writes.walked writes.directory writes.proper
      refine .inr ⟨fun same => writes.free (same ▸ held), ?_⟩
      rw [find_of_walk writes.legal walked, held, writes.noSlash]
      cases n <;> rfl
    · left
      rw [filed, if_neg target, held]
  · by_cases target : loc = at_ ++ [name]
    · subst target
      rw [filed, if_pos rfl] at held
      rw [find_of_writes writes, ← Option.some.inj held]
    · rw [filed, if_neg target, missing] at held
      cases held

def place (origin : Location) (steps : List String) : Location :=
  origin ++ steps.filter fun step => step != "."

theorem place_append (as bs : List String) :
    place origin (as ++ bs) = place (place origin as) bs := by
  rw [place, place, place, List.filter_append, List.append_assoc]

theorem place_cons (step : String) (steps : List String) :
    place origin (step :: steps) = place (place origin [step]) steps :=
  place_append [step] steps

theorem place_moving {step : String} (moves : step ≠ ".") :
    place origin [step] = origin ++ [step] := by
  rw [place, List.filter_cons_of_pos (by simpa using moves), List.filter_nil]

theorem place_mono {as bs : List String} (h : as <+: bs) : place origin as <+: place origin bs := by
  obtain ⟨cs, rfl⟩ := h
  rw [place_append]
  exact List.prefix_append _ _

theorem enter_plain {step : String} (down : step ≠ "..") (h : fs.enter origin step = .ok loc) :
    loc = place origin [step] := by
  rw [enter, directory_of_enter h] at h
  dsimp only at h
  by_cases here : step = "."
  · rw [if_pos here] at h
    obtain rfl := Except.ok.inj h
    simp [place, here]
  · rw [if_neg here, if_neg down] at h
    split at h
    · cases h
    · obtain rfl := Except.ok.inj h
      exact (place_moving here).symm

theorem walk_plain (down : ".." ∉ steps) (h : fs.walk origin steps = .ok loc) :
    loc = place origin steps := by
  induction steps generalizing origin with
  | nil =>
      obtain rfl := Except.ok.inj h
      exact (List.append_nil origin).symm
  | cons step steps ih =>
      obtain ⟨here, later⟩ := not_or.mp (mt List.mem_cons.mpr down)
      cases entered : fs.enter origin step with
      | error e =>
          rw [walk, entered] at h
          cases h
      | ok next =>
          rw [walk, entered] at h
          rw [ih later h, enter_plain (Ne.symm here) entered, ← place_cons]

theorem walk_place (rooted : fs.Rooted) (down : ".." ∉ steps)
    (filed : fs.node? (place origin steps) = some .directory) :
    fs.walk origin steps = .ok (place origin steps) := by
  induction steps generalizing origin with
  | nil => simp [walk, place]
  | cons step steps ih =>
      have directory : fs.node? origin = some .directory := by
        by_cases level : (step :: steps).filter (fun step => step != ".") = []
        · rwa [place, level, List.append_nil] at filed
        · exact rooted.above filed level
      have entered : fs.enter origin step = .ok (place origin [step]) := by
        by_cases here : step = "."
        · rw [enter, directory]
          simp [here, place]
        · have among : step ∈ place origin (step :: steps) := by simp [place, here]
          rw [enter_name directory (isName_of_filed filed step among), place_moving here]
      rw [place_cons] at filed ⊢
      rw [walk, entered]
      exact ih (fun up => down (List.mem_cons_of_mem step up)) filed

theorem Grows.walk {new : Location → Node → Prop} (grows : Grows new fs after) (rooted : fs.Rooted)
    (down : ".." ∉ steps) (walked : after.walk origin steps = .ok loc)
    (filed : fs.node? loc = some n) : fs.walk origin steps = .ok loc := by
  -- Each step starts at the end or above it, and so in a directory that was there before.
  induction steps generalizing origin with
  | nil => exact walked
  | cons step steps ih =>
      cases entered : after.enter origin step with
      | error e =>
          rw [FileSystem.walk, entered] at walked
          cases walked
      | ok next =>
          have target := walk_plain down walked
          have directory : fs.node? origin = some .directory := by
            by_cases level : (step :: steps).filter (fun step => step != ".") = []
            · rw [place, level, List.append_nil] at target
              rw [target] at filed
              rw [filed, ← grows.kept _ _ filed]
              exact directory_of_enter entered
            · rw [target] at filed
              exact rooted.above filed level
          have same : fs.enter origin step = .ok next := by
            rw [← entered]
            exact enter_congr (directory.trans (grows.kept _ _ directory).symm)
          rw [FileSystem.walk, entered] at walked
          rw [FileSystem.walk, same]
          exact ih (fun up => down (List.mem_cons_of_mem step up)) walked

theorem makeDirectory_eq_ok {last : String} {before : List String}
    (h : fs.makeDirectory origin (last :: before) = .ok made) :
    ∃ loc, fs.walk origin before.reverse = .ok loc ∧ fs.node? loc = some .directory ∧
      last ≠ "." ∧ fs.node? (loc ++ [last]) = none ∧ made = fs.put (loc ++ [last]) .directory := by
  cases found : fs.container origin before with
  | error e =>
      rw [makeDirectory, found] at h
      cases h
  | ok loc =>
      rw [makeDirectory, found] at h
      dsimp only [bind, Except.bind] at h
      split at h
      case isTrue => cases h
      rename_i usual
      split at h
      case isTrue => cases h
      split at h
      case isTrue => cases h
      rename_i missing
      obtain ⟨walked, directory⟩ := container_eq_ok found
      exact ⟨loc, walked, directory, fun here => usual (.inl here),
        by simpa using missing, (Except.ok.inj h).symm⟩

def OnTheWay (target : Location) (loc : Location) (n : Node) : Prop :=
  loc <+: target ∧ n = .directory

theorem OnTheWay.mono {target further : Location} (h : OnTheWay target loc n)
    (longer : target <+: further) : OnTheWay further loc n :=
  ⟨h.1.trans longer, h.2⟩

theorem grows_makeDirectory (down : ".." ∉ reversed)
    (h : fs.makeDirectory origin reversed = .ok made) :
    Grows (OnTheWay (place origin reversed.reverse)) fs made := by
  cases reversed with
  | nil => cases h
  | cons last before =>
      obtain ⟨loc, walked, directory, moves, missing, rfl⟩ := makeDirectory_eq_ok h
      have down' : ".." ∉ before.reverse := fun up =>
        down (List.mem_cons_of_mem last (List.mem_reverse.mp up))
      obtain rfl := walk_plain down' walked
      refine (grows_put directory missing).mono fun at_ m new => ?_
      have target : place origin (last :: before).reverse = at_ := by
        rw [List.reverse_cons, place_append, place_moving moves, new.1]
      exact ⟨target ▸ List.prefix_refl _, new.2⟩

theorem grows_makeAncestors (down : ".." ∉ reversed) :
    Grows (OnTheWay (place origin reversed.reverse)) fs (fs.makeAncestors origin reversed).2 := by
  induction reversed with
  | nil => exact Grows.refl fs
  | cons last before ih =>
      have ancestors : Grows (OnTheWay (place origin (last :: before).reverse)) fs
          (fs.makeAncestors origin before).2 :=
        (ih fun up => down (List.mem_cons_of_mem last up)).mono fun loc n new => by
          rw [List.reverse_cons]
          exact new.mono (place_mono (List.prefix_append _ _))
      rw [makeAncestors]
      split
      · rename_i made
        exact grows_makeDirectory down made
      · split
        · rename_i e made before
          rwa [before] at ancestors
        · rename_i made before
          rw [before] at ancestors
          split
          · rename_i final
            exact ancestors.trans (grows_makeDirectory down final)
          · split <;> exact ancestors
      · split <;> exact Grows.refl fs

theorem grows_makeDirectories {d : Path} (down : ".." ∉ d.steps) :
    Grows (OnTheWay (place (fs.start d) d.steps)) fs (fs.makeDirectories d).2 := by
  rw [makeDirectories]
  split
  · exact Grows.refl fs
  · split
    · exact Grows.refl fs
    · have grows : Grows (OnTheWay (place (fs.start d) d.steps.reverse.reverse)) fs
          (fs.makeAncestors (fs.start d) d.steps.reverse).2 :=
        grows_makeAncestors fun up => down (List.mem_reverse.mp up)
      rwa [List.reverse_reverse] at grows

end TrustRoles.FileSystem
