import TrustRoles.FileSystem

namespace TrustRoles

namespace Path

theorem splitAtSlash_ne_nil (cs : List Char) : splitAtSlash cs ≠ [] := by
  cases cs with
  | nil => exact List.cons_ne_nil _ _
  | cons c cs =>
      rw [splitAtSlash]
      split
      · exact List.cons_ne_nil _ _
      · split <;> exact List.cons_ne_nil _ _

theorem splitAtSlash_append (as bs : List Char) :
    splitAtSlash (as ++ '/' :: bs) = splitAtSlash as ++ splitAtSlash bs := by
  induction as with
  | nil => rfl
  | cons c as ih =>
      rw [List.cons_append, splitAtSlash, splitAtSlash, ih]
      by_cases slash : c = '/'
      · simp [slash]
      · obtain ⟨w, ws, split⟩ := List.exists_cons_of_ne_nil (splitAtSlash_ne_nil as)
        simp [slash, split]

theorem splitAtSlash_of_not_mem {cs : List Char} (h : '/' ∉ cs) : splitAtSlash cs = [cs] := by
  induction cs with
  | nil => rfl
  | cons c cs ih =>
      obtain ⟨other, rest⟩ := not_or.mp (mt List.mem_cons.mpr h)
      rw [splitAtSlash, if_neg (Ne.symm other), ih rest]

variable {p : Path} {name : String}

theorem toList_join : (p.join name).text.toList =
    if p.text.isEmpty || p.endsInSlash then p.text.toList ++ name.toList
    else p.text.toList ++ '/' :: name.toList := by
  unfold join
  split <;> simp

theorem size_join_le :
    p.text.utf8ByteSize + name.utf8ByteSize ≤ (p.join name).text.utf8ByteSize := by
  unfold join
  split
  · exact Nat.le_of_eq String.utf8ByteSize_append.symm
  · rw [String.utf8ByteSize_append, String.utf8ByteSize_append]
    omega

theorem steps_join (whole : '/' ∉ name.toList) (written : name ≠ "") :
    (p.join name).steps = p.steps ++ [name] := by
  have nonempty : name.toList.isEmpty = false := by simpa using written
  have last (as : List Char) :
      ((splitAtSlash (as ++ '/' :: name.toList)).filter fun w => !w.isEmpty).map String.ofList =
        ((splitAtSlash as).filter fun w => !w.isEmpty).map String.ofList ++ [name] := by
    simp [splitAtSlash_append, splitAtSlash_of_not_mem whole, nonempty]
  rw [steps, toList_join]
  split
  · rename_i joined
    rcases Bool.or_eq_true_iff.mp joined with empty | slash
    · have nothing : p.text.toList = [] := by simpa using empty
      rw [steps, nothing, List.nil_append, splitAtSlash_of_not_mem whole]
      simp [splitAtSlash, nonempty]
    · obtain ⟨as, ends⟩ : ∃ as, p.text.toList = as ++ ['/'] :=
        List.getLast?_eq_some_iff.mp (by simpa [endsInSlash] using slash)
      rw [steps, ends, List.append_assoc, List.singleton_append, last, splitAtSlash_append]
      simp [splitAtSlash]
  · rw [last, steps]

theorem isAbsolute_join (written : p.text ≠ "") : (p.join name).isAbsolute = p.isAbsolute := by
  obtain ⟨c, cs, starts⟩ := List.exists_cons_of_ne_nil (mt String.toList_eq_nil_iff.mp written)
  rw [isAbsolute, isAbsolute, toList_join, starts]
  split <;> rfl

theorem endsInSlash_join (whole : '/' ∉ name.toList) (written : name ≠ "") :
    (p.join name).endsInSlash = false := by
  obtain ⟨c, ends⟩ : ∃ c, name.toList.getLast? = some c :=
    Option.isSome_iff_exists.mp (by simpa using written)
  have other : c ≠ '/' := fun slash => whole (slash ▸ List.mem_of_getLast? ends)
  have last : (p.join name).text.toList.getLast? = some c := by
    rw [toList_join]
    split <;> simp [List.getLast?_append, List.getLast?_cons, ends]
  simpa [endsInSlash, last] using other

theorem nul_join (h : '\x00' ∉ p.text.toList) (h' : '\x00' ∉ name.toList) :
    '\x00' ∉ (p.join name).text.toList := by
  rw [toList_join]
  split <;> simp [h, h']

end Path

namespace FileSystem

variable {fs : FileSystem} {p : Path} {loc : Location} {name : String}

theorem isName_iff : isName name = true ↔ name ≠ "" ∧ name ≠ "." ∧ name ≠ ".." ∧
    '/' ∉ name.toList ∧ '\x00' ∉ name.toList ∧ name.utf8ByteSize ≤ nameLimit := by
  simp [isName, and_assoc]

theorem checkPath_eq_ok_iff : checkPath p = .ok () ↔
    '\x00' ∉ p.text.toList ∧ p.text ≠ "" ∧ p.text.utf8ByteSize ≤ pathLimit := by
  unfold checkPath
  by_cases nul : '\x00' ∈ p.text.toList
  · simp [nul]
  · by_cases empty : p.text = ""
    · simp [empty]
    · by_cases long : pathLimit < p.text.utf8ByteSize
      · simp [nul, empty, long]
      · simp [nul, empty, long, Nat.not_lt.mp long]

theorem find_of_walk (legal : checkPath p = .ok ())
    (walked : fs.walk (fs.start p) p.steps = .ok loc) :
    fs.find p = match fs.node? loc with
      | none => .error .notFound
      | some (.file content) =>
          if p.endsInSlash then .error .notADirectory else .ok (loc, .file content)
      | some .directory => .ok (loc, .directory) := by
  rw [find, legal, walked]
  rfl

theorem exists_walk_of_find {n : Node} (found : fs.find p = .ok (loc, n)) :
    checkPath p = .ok () ∧ fs.walk (fs.start p) p.steps = .ok loc ∧ fs.node? loc = some n := by
  cases legal : checkPath p with
  | error e =>
      rw [find, legal] at found
      cases found
  | ok _ =>
      cases walked : fs.walk (fs.start p) p.steps with
      | error e =>
          rw [find, legal, walked] at found
          cases found
      | ok at_ =>
          rw [find_of_walk legal walked] at found
          split at found
          · cases found
          · rename_i content filed
            split at found
            · cases found
            · cases found
              exact ⟨rfl, rfl, filed⟩
          · rename_i filed
            cases found
            exact ⟨rfl, rfl, filed⟩

theorem find_eq_directory_iff : fs.find p = .ok (loc, .directory) ↔
    checkPath p = .ok () ∧ fs.walk (fs.start p) p.steps = .ok loc ∧
      fs.node? loc = some .directory := by
  refine ⟨exists_walk_of_find, ?_⟩
  rintro ⟨legal, walked, directory⟩
  rw [find_of_walk legal walked, directory]

theorem walk_append (at_ : Location) (as bs : List String) :
    fs.walk at_ (as ++ bs) = (fs.walk at_ as).bind fun there => fs.walk there bs := by
  induction as generalizing at_ with
  | nil => rfl
  | cons step as ih =>
      rw [List.cons_append, walk, walk]
      cases fs.enter at_ step with
      | error e => rfl
      | ok next => exact ih next

theorem enter_name (directory : fs.node? loc = some .directory) (proper : isName name = true) :
    fs.enter loc name = .ok (loc ++ [name]) := by
  obtain ⟨-, here, up, -, -, short⟩ := isName_iff.mp proper
  rw [enter, directory]
  simp [here, up, Nat.not_lt.mpr short]

theorem find_join (found : fs.find p = .ok (loc, .directory)) (proper : isName name = true) :
    fs.find (p.join name) =
      if pathLimit < (p.join name).text.utf8ByteSize then .error .nameTooLong
      else match fs.node? (loc ++ [name]) with
        | none => .error .notFound
        | some n => .ok (loc ++ [name], n) := by
  obtain ⟨legal, walked, directory⟩ := find_eq_directory_iff.mp found
  obtain ⟨clean, written, -⟩ := checkPath_eq_ok_iff.mp legal
  obtain ⟨some', -, -, whole, clean', -⟩ := isName_iff.mp proper
  have clean'' := Path.nul_join clean clean'
  have written' : (p.join name).text ≠ "" := by
    intro empty
    have nothing := congrArg String.toList empty
    rw [Path.toList_join] at nothing
    split at nothing <;> simp_all
  split
  · rename_i long
    rw [find, checkPath]
    simp [clean'', written', long]
    rfl
  · rename_i short
    have legal' : checkPath (p.join name) = .ok () :=
      checkPath_eq_ok_iff.mpr ⟨clean'', written', Nat.not_lt.mp short⟩
    have walked' : fs.walk (fs.start (p.join name)) (p.join name).steps = .ok (loc ++ [name]) := by
      have origin : fs.start (p.join name) = fs.start p := by
        rw [start, start, Path.isAbsolute_join written]
      rw [origin, Path.steps_join whole some', walk_append, walked]
      change (fs.enter loc name).bind _ = _
      rw [enter_name directory proper]
      rfl
    rw [find_of_walk legal' walked', Path.endsInSlash_join whole some']
    cases fs.node? (loc ++ [name]) with
    | none => rfl
    | some n => cases n <;> rfl

theorem isFile_join_iff (found : fs.find p = .ok (loc, .directory)) (proper : isName name = true) :
    fs.isFile (p.join name) = true ↔ (∃ content, fs.node? (loc ++ [name]) = some (.file content)) ∧
      (p.join name).text.utf8ByteSize ≤ pathLimit := by
  rw [isFile, find_join found proper]
  by_cases long : pathLimit < (p.join name).text.utf8ByteSize
  · simp [long]
  · cases node : fs.node? (loc ++ [name]) with
    | none => simp [long]
    | some n => cases n <;> simp [long, Nat.not_lt.mp long]

theorem node?_concat : fs.node? (loc ++ [name]) = fs.nodes.lookup (loc ++ [name]) := by
  cases loc <;> rfl

theorem lookup_eq_some_iff {at_ : Location} {n : Node} :
    fs.nodes.lookup at_ = some n ↔ (at_, n) ∈ fs.nodes := by
  rw [List.lookup_eq_some_iff]
  constructor
  · rintro ⟨before, after, split, -⟩
    simp [split]
  · intro among
    obtain ⟨before, after, split⟩ := List.append_of_mem among
    refine ⟨before, after, split, fun e he => ?_⟩
    have distinct := fs.distinct
    simp only [split, List.map_append, List.map_cons, List.nodup_append] at distinct
    have differs := distinct.2.2 e.1 (List.mem_map_of_mem he) at_ (List.mem_cons_self ..)
    simpa using Ne.symm differs

theorem childFile?_eq_some_iff {e : Location × Node} :
    childFile? loc e = some name ↔ ∃ content, e = (loc ++ [name], .file content) := by
  obtain ⟨at_, n⟩ := e
  cases n with
  | directory => simp [childFile?]
  | file content =>
      rw [childFile?]
      constructor
      · intro child
        split at child
        · rename_i parent
          obtain ⟨init, ends⟩ := List.getLast?_eq_some_iff.mp child
          rw [ends, List.dropLast_concat] at parent
          exact ⟨content, by rw [ends, parent]⟩
        · cases child
      · rintro ⟨content', same⟩
        cases same
        simp

theorem mem_children_iff : name ∈ fs.nodes.filterMap (childFile? loc) ↔
    ∃ content, fs.node? (loc ++ [name]) = some (.file content) := by
  simp only [List.mem_filterMap, childFile?_eq_some_iff, node?_concat, lookup_eq_some_iff]
  constructor
  · rintro ⟨e, among, content, rfl⟩
    exact ⟨content, among⟩
  · rintro ⟨content, among⟩
    exact ⟨_, among, content, rfl⟩

theorem isName_of_node? {n : Node} (h : fs.node? (loc ++ [name]) = some n) :
    isName name = true := by
  rw [node?_concat, lookup_eq_some_iff] at h
  exact fs.named _ h name (by simp)

theorem nodup_children : (fs.nodes.filterMap (childFile? loc)).Nodup := by
  have distinct := fs.distinct
  generalize fs.nodes = nodes at distinct
  induction nodes with
  | nil => exact .nil
  | cons e es ih =>
      obtain ⟨new, distinct⟩ := List.nodup_cons.mp distinct
      cases child : childFile? loc e with
      | none => rw [List.filterMap_cons_none child]; exact ih distinct
      | some name =>
          rw [List.filterMap_cons_some child]
          refine List.nodup_cons.mpr ⟨fun twice => new ?_, ih distinct⟩
          obtain ⟨e', among, child'⟩ := List.mem_filterMap.mp twice
          obtain ⟨content, rfl⟩ := childFile?_eq_some_iff.mp child
          obtain ⟨content', rfl⟩ := childFile?_eq_some_iff.mp child'
          exact List.mem_map.mpr ⟨_, among, rfl⟩

end FileSystem

end TrustRoles
