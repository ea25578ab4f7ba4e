import Mathlib.Data.List.Sort
import Mathlib.Data.List.TakeWhile
import TrustRoles.Proofs.Files.Name
import TrustRoles.Proofs.Files.Snapshot
import TrustRoles.Proofs.Text.Utf8

namespace TrustRoles

namespace Path

theorem extension?_of_not_mem {name : String} (h : '.' ∉ name.toList) : extension? name = none := by
  have nothing : name.toList.reverse.dropWhile (fun c => c != '.') = [] := by
    refine List.dropWhile_eq_nil_iff.mpr ?_
    intro c hc
    simpa using fun same : c = '.' => h (same ▸ List.mem_reverse.mp hc)
  rw [extension?]
  simp [nothing]

theorem extension?_of_reverse_eq {name : String} {ending stem : List Char}
    (split : name.toList.reverse = ending ++ '.' :: stem) (h : '.' ∉ ending) :
    extension? name = if stem = [] then none else some (String.ofList ending.reverse) := by
  have undotted : ∀ c ∈ ending, (c != '.') = true := by
    intro c hc
    simpa using fun same : c = '.' => h (same ▸ hc)
  have rest : name.toList.reverse.dropWhile (fun c => c != '.') = '.' :: stem := by
    rw [split, List.dropWhile_append_of_pos undotted]
    rfl
  have front : name.toList.reverse.takeWhile (fun c => c != '.') = ending := by
    rw [split, List.takeWhile_append_of_pos undotted]
    simp
  rw [extension?]
  cases stem <;> simp [rest, front]

theorem extension?_eq_some_iff {name ending : String} :
    extension? name = some ending ↔
      ∃ stem, stem ≠ "" ∧ name = stem ++ "." ++ ending ∧ '.' ∉ ending.toList := by
  constructor
  · intro found
    by_cases dot : '.' ∈ name.toList.reverse
    · obtain ⟨as, bs, split, undotted⟩ := List.eq_append_cons_of_mem dot
      rw [extension?_of_reverse_eq split undotted] at found
      split at found
      · cases found
      · rename_i written
        obtain rfl := Option.some.inj found
        refine ⟨String.ofList bs.reverse, by simpa using written, ?_, by simpa using undotted⟩
        rw [← String.toList_inj]
        simpa using congrArg List.reverse split
    · rw [extension?_of_not_mem (by simpa using dot)] at found
      cases found
  · rintro ⟨stem, written, rfl, undotted⟩
    have split : (stem ++ "." ++ ending).toList.reverse =
        ending.toList.reverse ++ '.' :: stem.toList.reverse := by simp
    rw [extension?_of_reverse_eq split (by simpa using undotted)]
    simp [written]

end Path

namespace FileSource

def CertificateName (name : String) : Prop :=
  ∃ stem ending, stem ≠ "" ∧ name = stem ++ "." ++ ending ∧ ending.map Char.toLower ∈ endings

theorem dot_not_mem_of_ending {ending : String} (h : ending.map Char.toLower ∈ endings) :
    '.' ∉ ending.toList := by
  intro dot
  have lower : '.' ∈ (ending.map Char.toLower).toList := by
    rw [String.toList_map]
    exact List.mem_map.mpr ⟨'.', dot, by decide⟩
  have undotted : ∀ e ∈ endings, '.' ∉ e.toList := by decide
  exact undotted _ h lower

theorem isCertificateName_iff {name : String} :
    isCertificateName name = true ↔ CertificateName name := by
  unfold isCertificateName CertificateName
  constructor
  · intro h
    split at h
    · cases h
    · rename_i ending found
      obtain ⟨stem, written, same, -⟩ := Path.extension?_eq_some_iff.mp found
      exact ⟨stem, ending, written, same, by simpa using h⟩
  · rintro ⟨stem, ending, written, same, known⟩
    have found := Path.extension?_eq_some_iff.mpr ⟨stem, written, same, dot_not_mem_of_ending known⟩
    rw [found]
    simpa using known

theorem mem_sortNames {name : String} {names : List String} :
    name ∈ sortNames names ↔ name ∈ names :=
  List.mem_mergeSort

theorem sortNames_ordered {names : List String} (distinct : names.Nodup) :
    (sortNames names).Pairwise fun a b => Text.utf8 a < Text.utf8 b := by
  have notAbove (a b : String) : (!decide (b < a)) = true ↔ a ≤ b := by
    rw [Bool.not_eq_true', decide_eq_false_iff_not, String.not_lt]
  have sorted : (sortNames names).Pairwise fun a b => a ≤ b := by
    refine (List.pairwise_mergeSort (fun a b c => ?_) (fun a b => ?_) names).imp (notAbove _ _).mp
    · rw [notAbove, notAbove, notAbove]
      exact String.le_trans
    · rw [Bool.or_eq_true, notAbove, notAbove]
      exact String.le_total a b
  have distinct' : (sortNames names).Nodup := (List.mergeSort_perm names _).nodup_iff.mpr distinct
  refine (sorted.and distinct').imp fun ⟨below, differs⟩ => Text.utf8_lt ?_
  exact String.not_le.mp fun above => differs (String.le_antisymm below above)

end FileSource

namespace FileSystem

variable {files : FileSystem} {p : Path} {names ms : List String} {e : FileError}

/-- A directory that may be listed, and the names in it of certificate files that the path, with the
name after it, is short enough to reach. -/
structure Lists (files : FileSystem) (p : Path) (names : List String) : Prop where
  chosen : ∃ loc, files.find p = .ok (loc, .directory) ∧ files.closed? loc = none ∧
    ∀ name, name ∈ names ↔ (∃ content, files.node? (loc ++ [name]) = some (.file content)) ∧
      FileSource.CertificateName name ∧ (p.join name).text.utf8ByteSize ≤ pathLimit
  ordered : names.Pairwise fun a b => Text.utf8 a < Text.utf8 b

def Refuses (files : FileSystem) (p : Path) (e : FileError) : Prop :=
  ∃ loc, files.find p = .ok (loc, .directory) ∧ files.closed? loc = some e

theorem Lists.unique (h : files.Lists p ms) (h' : files.Lists p names) : ms = names := by
  obtain ⟨⟨loc, found, -, chosen⟩, ordered⟩ := h
  obtain ⟨⟨loc', found', -, chosen'⟩, ordered'⟩ := h'
  obtain ⟨rfl⟩ : loc = loc' := by
    rw [found] at found'
    exact (Prod.mk.inj (Except.ok.inj found')).1
  have irreflexive : Std.Irrefl fun a b : String => Text.utf8 a < Text.utf8 b :=
    ⟨fun a => List.lt_irrefl _⟩
  have antisymmetric : Std.Antisymm fun a b : String => Text.utf8 a < Text.utf8 b :=
    ⟨fun a b below above => absurd above (List.lt_asymm below)⟩
  exact ordered.eq_of_mem_iff ordered' fun name => (chosen name).trans (chosen' name).symm

theorem isDirectory_iff :
    files.isDirectory p = true ↔ ∃ loc, files.find p = .ok (loc, .directory) := by
  unfold isDirectory
  split
  · rename_i loc found
    exact iff_of_true rfl ⟨loc, found⟩
  · rename_i other
    exact iff_of_false Bool.false_ne_true fun ⟨loc, found⟩ => other loc found

theorem Refuses.isDirectory (h : files.Refuses p e) : files.isDirectory p = true := by
  obtain ⟨loc, found, -⟩ := h
  exact isDirectory_iff.mpr ⟨loc, found⟩

theorem Refuses.fileNames (h : files.Refuses p e) : files.fileNames p = .error e := by
  obtain ⟨loc, found, closed⟩ := h
  rw [FileSystem.fileNames, found]
  dsimp only [bind, Except.bind]
  rw [closed]

theorem fileNames_of_directory {loc : Location} (found : files.find p = .ok (loc, .directory))
    (openly : files.closed? loc = none) :
    ∃ entries, files.fileNames p = .ok entries ∧ entries.Nodup ∧ ∀ name, name ∈ entries ↔
      (∃ content, files.node? (loc ++ [name]) = some (.file content)) ∧
        (p.join name).text.utf8ByteSize ≤ pathLimit := by
  refine ⟨(files.nodes.filterMap (childFile? loc)).filter fun name => files.isFile (p.join name),
    ?_, nodup_children.filter _, fun name => ?_⟩
  · rw [FileSystem.fileNames, found]
    dsimp only [bind, Except.bind]
    rw [openly]
  · rw [List.mem_filter, mem_children_iff]
    constructor
    · rintro ⟨⟨content, node⟩, file⟩
      exact (isFile_join_iff found (isName_of_node? node)).mp file
    · rintro ⟨⟨content, node⟩, short⟩
      exact ⟨⟨content, node⟩,
        (isFile_join_iff found (isName_of_node? node)).mpr ⟨⟨content, node⟩, short⟩⟩

theorem exists_lists {loc : Location} (found : files.find p = .ok (loc, .directory))
    (openly : files.closed? loc = none) :
    ∃ names, files.Lists p names ∧ FileSource.pathsAt files p = .ok (names.map p.join) := by
  obtain ⟨entries, listed, distinct, mem⟩ := fileNames_of_directory found openly
  refine ⟨FileSource.sortNames (entries.filter FileSource.isCertificateName),
    ⟨⟨loc, found, openly, ?_⟩, ?_⟩, ?_⟩
  · intro name
    rw [FileSource.mem_sortNames, List.mem_filter, mem, FileSource.isCertificateName_iff]
    tauto
  · exact FileSource.sortNames_ordered (distinct.filter _)
  · rw [FileSource.pathsAt, if_pos (isDirectory_iff.mpr ⟨loc, found⟩), listed]
    rfl

theorem Refuses.pathsAt (h : files.Refuses p e) :
    FileSource.pathsAt files p = .error (.io e.message) := by
  rw [FileSource.pathsAt, if_pos h.isDirectory, h.fileNames]
  rfl

inductive Expands (files : FileSystem) : Path → List Path → Prop
  | directory {p : Path} {names : List String} (h : files.Lists p names) :
      Expands files p (names.map p.join)
  | other {p : Path} (h : files.isDirectory p = false) : Expands files p [p]

theorem pathsAt_of_expands {ps : List Path} (h : files.Expands p ps) :
    FileSource.pathsAt files p = .ok ps := by
  cases h with
  | directory lists =>
      obtain ⟨loc, found, openly, -⟩ := lists.chosen
      obtain ⟨names, lists', expanded⟩ := exists_lists found openly
      rw [expanded, lists.unique lists']
  | other plain => rw [FileSource.pathsAt, plain, if_neg Bool.false_ne_true]

theorem expands_or_refuses (files : FileSystem) (p : Path) :
    (∃ ps, files.Expands p ps) ∨ ∃ e, files.Refuses p e := by
  cases directory : files.isDirectory p with
  | false => exact .inl ⟨_, .other directory⟩
  | true =>
      obtain ⟨loc, found⟩ := isDirectory_iff.mp directory
      cases closed : files.closed? loc with
      | some e => exact .inr ⟨e, loc, found, closed⟩
      | none =>
          obtain ⟨names, lists, -⟩ := exists_lists found closed
          exact .inl ⟨_, .directory lists⟩

theorem expands_iff {ps : List Path} :
    files.Expands p ps ↔ FileSource.pathsAt files p = .ok ps := by
  refine ⟨pathsAt_of_expands, fun expanded => ?_⟩
  rcases expands_or_refuses files p with ⟨ps', expands⟩ | ⟨e, refuses⟩
  · rw [pathsAt_of_expands expands] at expanded
    exact Except.ok.inj expanded ▸ expands
  · cases refuses.pathsAt.symm.trans expanded

theorem Lists.expands_join (h : files.Lists p names) {name : String} (among : name ∈ names) :
    files.Expands (p.join name) [p.join name] := by
  obtain ⟨loc, found, -, chosen⟩ := h.chosen
  obtain ⟨⟨content, node⟩, -, short⟩ := (chosen name).mp among
  refine .other (Bool.not_eq_true _ ▸ fun directory => ?_)
  obtain ⟨loc', found'⟩ := isDirectory_iff.mp directory
  rw [find_join found (isName_of_node? node), if_neg (Nat.not_lt.mpr short), node] at found'
  cases found'

end FileSystem

end TrustRoles
