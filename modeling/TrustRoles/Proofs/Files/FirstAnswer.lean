import TrustRoles.Proofs.Files.Expansion

namespace TrustRoles

namespace FileSource

variable {α β : Type} {find : α → Except Fault (List β)}

theorem gather_cons (a : α) (as : List α) : gather find (a :: as) =
    (find a).bind fun here => (gather find as).map fun there => here ++ there := rfl

theorem gather_append (as bs : List α) : gather find (as ++ bs) =
    (gather find as).bind fun here => (gather find bs).map fun there => here ++ there := by
  induction as with
  | nil =>
      rw [List.nil_append]
      cases gather find bs <;> rfl
  | cons a as ih =>
      rw [List.cons_append, gather_cons, gather_cons, ih]
      cases find a with
      | error f => rfl
      | ok here =>
          cases gather find as with
          | error f => rfl
          | ok more =>
              cases gather find bs with
              | error f => rfl
              | ok there => exact congrArg Except.ok (List.append_assoc ..).symm

theorem gather_of_forall₂ {as : List α} {bss : List (List β)}
    (h : List.Forall₂ (fun a bs => find a = .ok bs) as bss) : gather find as = .ok bss.flatten := by
  induction h with
  | nil => rfl
  | cons found _ ih =>
      rw [gather_cons, found, ih]
      rfl

theorem gather_of_failed {before after : List α} {a : α} {f : Fault}
    (fine : ∀ b ∈ before, ∃ bs, find b = .ok bs) (failed : find a = .error f) :
    gather find (before ++ a :: after) = .error f := by
  induction before with
  | nil =>
      rw [List.nil_append, gather_cons, failed]
      rfl
  | cons b before ih =>
      obtain ⟨bs, found⟩ := fine b (List.mem_cons_self ..)
      rw [List.cons_append, gather_cons, found, ih fun b hb => fine b (List.mem_cons_of_mem _ hb)]
      rfl

def loadIn (w : World) (p : Path) : Except Fault (List Profile) :=
  (World.run (load p).run w).1

theorem loadIn_eq (w : World) (p : Path) : loadIn w p = profilesAt w.files p :=
  (reads_load p w).1

def contents (files : FileSystem) (paths : List Path) : Except Fault (List Profile) :=
  (gather (pathsAt files) paths).bind (gather (profilesAt files))

theorem onDisk_eq (s : FileSource) (files : FileSystem) :
    s.onDisk files = (contents files s.paths).map (Member.number s.number) := by
  rw [onDisk, contents]
  cases gather (pathsAt files) s.paths <;> rfl

variable {files : FileSystem} {paths : List Path}

theorem gather_pathsAt {pss : List (List Path)}
    (h : List.Forall₂ files.Expands paths pss) : gather (pathsAt files) paths = .ok pss.flatten :=
  gather_of_forall₂ (h.imp fun _ _ => FileSystem.expands_iff.mp)

theorem expansion_or_refusal (files : FileSystem) (paths : List Path) :
    (∃ pss, List.Forall₂ files.Expands paths pss) ∨ ∃ before p after e,
      paths = before ++ p :: after ∧ (∀ q ∈ before, ∃ ps, files.Expands q ps) ∧
        files.Refuses p e := by
  induction paths with
  | nil => exact .inl ⟨[], .nil⟩
  | cons p paths ih =>
      rcases files.expands_or_refuses p with ⟨ps, here⟩ | ⟨e, refuses⟩
      · rcases ih with ⟨pss, there⟩ | ⟨before, q, after, e, rfl, fine, refuses⟩
        · exact .inl ⟨ps :: pss, .cons here there⟩
        · exact .inr ⟨p :: before, q, after, e, rfl, List.forall_mem_cons.mpr ⟨⟨ps, here⟩, fine⟩,
            refuses⟩
      · exact .inr ⟨[], p, paths, e, rfl, List.forall_mem_nil _, refuses⟩

theorem contents_of_expansion {pss : List (List Path)} (h : List.Forall₂ files.Expands paths pss) :
    contents files paths = gather (profilesAt files) pss.flatten := by
  rw [contents, gather_pathsAt h]
  rfl

theorem contents_of_refusal {before after : List Path} {p : Path} {e : FileError}
    (fine : ∀ q ∈ before, ∃ ps, files.Expands q ps) (refuses : files.Refuses p e) :
    contents files (before ++ p :: after) = .error (.io e.message) := by
  have expanded : ∀ q ∈ before, ∃ ps, pathsAt files q = .ok ps := fun q among =>
    (fine q among).imp fun ps => FileSystem.pathsAt_of_expands
  rw [contents, gather_of_failed expanded refuses.pathsAt]
  rfl

theorem contents_append {more : List Path} {ps qs : List Profile}
    (here : contents files paths = .ok ps) (there : contents files more = .ok qs) :
    contents files (paths ++ more) = .ok (ps ++ qs) := by
  obtain ⟨found, expanded, read⟩ := bind_eq_ok.mp here
  obtain ⟨found', expanded', read'⟩ := bind_eq_ok.mp there
  have together : gather (pathsAt files) (paths ++ more) = .ok (found ++ found') := by
    rw [gather_append, expanded, expanded']
    rfl
  rw [contents, together]
  change gather (profilesAt files) (found ++ found') = _
  rw [gather_append, read, read']
  rfl

theorem gather_pathsAt_listed {p : Path} {names : List String} (h : files.Lists p names) :
    gather (pathsAt files) (names.map p.join) = gather (pathsAt files) [p] := by
  have here : List.Forall₂ files.Expands [p] [names.map p.join] := .cons (.directory h) .nil
  have there : List.Forall₂ files.Expands (names.map p.join)
      ((names.map p.join).map fun q => [q]) := by
    rw [List.forall₂_map_right_iff, List.forall₂_same]
    intro q among
    obtain ⟨name, listed, rfl⟩ := List.mem_map.mp among
    exact h.expands_join listed
  rw [gather_pathsAt here, gather_pathsAt there]
  rw [← List.flatMap_def, List.flatMap_singleton', List.flatten_singleton]

theorem contents_listed {before after : List Path} {p : Path} {names : List String}
    (h : files.Lists p names) : contents files (before ++ names.map p.join ++ after) =
      contents files (before ++ p :: after) := by
  have same : gather (pathsAt files) (before ++ names.map p.join ++ after) =
      gather (pathsAt files) (before ++ p :: after) := by
    rw [← List.singleton_append, List.append_assoc, gather_append, gather_append, gather_append,
      gather_append, gather_pathsAt_listed h]
  rw [contents, contents, same]

end FileSource

namespace Shelf

open FileSource (contents loadIn)

def firstAnswer (number : Nat) (paths : List Path) (w : World) (c : Criterion) : Answer :=
  (query c ⟨⟨number, paths, none⟩, w⟩).1

variable {number : Nat} {paths more : List Path} {w : World} {c : Criterion} {f : Fault}
  {ps qs : List Profile}

theorem firstAnswer_of_ok (h : contents w.files paths = .ok ps) :
    firstAnswer number paths w c = (Listing.ofProfiles number ps).oracle [] c := by
  refine (query_of_onDisk rfl ?_ c).1
  rw [FileSource.onDisk_eq, h]
  rfl

theorem firstAnswer_of_error (h : contents w.files paths = .error f) :
    firstAnswer number paths w c = .error f.toQueryFailure := by
  refine (query_of_fault rfl ?_ c).1
  rw [FileSource.onDisk_eq, h]
  rfl

theorem firstAnswer_congr (h : contents w.files paths = contents w.files more) :
    firstAnswer number paths w c = firstAnswer number more w c := by
  cases read : contents w.files more with
  | error f => rw [firstAnswer_of_error (h.trans read), firstAnswer_of_error read]
  | ok ps => rw [firstAnswer_of_ok (h.trans read), firstAnswer_of_ok read]

theorem number_injective : Function.Injective (Member.number number) := by
  intro ps qs same
  have back (ps : List Profile) : (Member.number number ps).map Member.profile = ps :=
    List.ext_getElem (by simp [Member.number]) (by simp [Member.number])
  rw [← back ps, same, back]

theorem contents_of_firstAnswer
    (h : firstAnswer number paths w .any = (Listing.ofProfiles number ps).oracle [] .any) :
    contents w.files paths = .ok ps := by
  have everything (ps : List Profile) :
      (Listing.ofProfiles number ps).oracle [] .any = .ok (Member.number number ps) :=
    congrArg Except.ok (Listing.select_any _)
  rw [everything] at h
  cases read : contents w.files paths with
  | error f =>
      rw [firstAnswer_of_error read] at h
      cases h
  | ok qs =>
      rw [firstAnswer_of_ok read, everything] at h
      rw [number_injective (Except.ok.inj h)]

/-- The files are a tree as in `FileSystem`: no links, names that are text. A directory may refuse
to be listed. -/
theorem first_answer (number : Nat) (paths : List Path) (w : World) (c : Criterion) :
    ((∃ pss, List.Forall₂ w.files.Expands paths pss) ∨ ∃ before p after e,
      paths = before ++ p :: after ∧ (∀ q ∈ before, ∃ ps, w.files.Expands q ps) ∧
        w.files.Refuses p e) ∧
    (∀ pss, List.Forall₂ w.files.Expands paths pss →
      (∀ qss, List.Forall₂ (fun p ps => loadIn w p = .ok ps) pss.flatten qss →
        firstAnswer number paths w c = (Listing.ofProfiles number qss.flatten).oracle [] c) ∧
      ∀ before p after f, pss.flatten = before ++ p :: after →
        (∀ q ∈ before, ∃ ps, loadIn w q = .ok ps) → loadIn w p = .error f →
          firstAnswer number paths w c = .error f.toQueryFailure) ∧
    (∀ before p after e, paths = before ++ p :: after →
      (∀ q ∈ before, ∃ ps, w.files.Expands q ps) → w.files.Refuses p e →
        firstAnswer number paths w c = .error (Fault.io e.message).toQueryFailure) ∧
    (∀ before p after names, paths = before ++ p :: after → w.files.Lists p names →
      firstAnswer number paths w c =
        firstAnswer number (before ++ names.map p.join ++ after) w c) ∧
    ∀ more ps qs, (∀ d, firstAnswer number paths w d = (Listing.ofProfiles number ps).oracle [] d) →
      (∀ d, firstAnswer number more w d = (Listing.ofProfiles number qs).oracle [] d) →
        firstAnswer number (paths ++ more) w c =
          (Listing.ofProfiles number (ps ++ qs)).oracle [] c := by
  refine ⟨FileSource.expansion_or_refusal _ _, fun pss expanded => ⟨fun qss loaded => ?_, ?_⟩, ?_,
    ?_, ?_⟩
  · simp only [FileSource.loadIn_eq] at loaded
    refine firstAnswer_of_ok ?_
    rw [FileSource.contents_of_expansion expanded, FileSource.gather_of_forall₂ loaded]
  · intro before p after f split fine failed
    simp only [FileSource.loadIn_eq] at fine failed
    refine firstAnswer_of_error ?_
    rw [FileSource.contents_of_expansion expanded, split, FileSource.gather_of_failed fine failed]
  · rintro before p after e rfl fine refuses
    exact firstAnswer_of_error (FileSource.contents_of_refusal fine refuses)
  · rintro before p after names rfl listed
    exact firstAnswer_congr (FileSource.contents_listed listed).symm
  · intro more ps qs here there
    exact firstAnswer_of_ok (FileSource.contents_append (contents_of_firstAnswer (here .any))
      (contents_of_firstAnswer (there .any)))

def closedDirectory : FileSystem where
  nodes := [(["d"], .directory)]
  closed := [(["d"], .permissionDenied)]
  workingDirectory := []
  distinct := by decide
  named := by decide

example : firstAnswer 0 [⟨"d"⟩] ⟨closedDirectory, []⟩ .any =
    .error ⟨"IO error: Permission denied (os error 13)"⟩ := by decide +kernel

def Holds (files : FileSystem) (p : Path) (names : List String) : Prop :=
  (∃ loc, files.find p = .ok (loc, .directory) ∧ ∀ name, name ∈ names ↔
    (∃ content, files.node? (loc ++ [name]) = some (.file content)) ∧
      FileSource.CertificateName name) ∧
  names.Pairwise fun a b => Text.utf8 a < Text.utf8 b

def loneFile : FileSystem where
  nodes := [(["d"], .directory), (["d", "a.pem"], .file [])]
  closed := []
  workingDirectory := []
  distinct := by decide
  named := by decide

def slashed (n : Nat) : Path := ⟨String.ofList ('d' :: List.replicate n '/')⟩

theorem splitAtSlash_replicate (n : Nat) :
    Path.splitAtSlash (List.replicate n '/') = List.replicate (n + 1) [] := by
  induction n with
  | zero => rfl
  | succ n ih =>
      rw [List.replicate_succ, Path.splitAtSlash, if_pos rfl, ih]
      rfl

theorem steps_slashed (n : Nat) : (slashed n).steps = ["d"] := by
  have split : Path.splitAtSlash ('d' :: List.replicate n '/') = ['d'] :: List.replicate n [] := by
    rw [Path.splitAtSlash, if_neg (by decide), splitAtSlash_replicate]
    rfl
  rw [Path.steps, slashed, String.toList_ofList, split]
  simp

theorem size_slashed (n : Nat) : (slashed n).text.utf8ByteSize = n + 1 := by
  rw [slashed]
  induction n with
  | zero => rfl
  | succ n ih =>
      have split : 'd' :: List.replicate (n + 1) '/' = 'd' :: List.replicate n '/' ++ ['/'] := by
        rw [List.replicate_succ']
        rfl
      rw [split, String.ofList_append, String.utf8ByteSize_append, ih]
      rfl

theorem find_slashed {n : Nat} (short : n < FileSystem.pathLimit) :
    loneFile.find (slashed n) = .ok (["d"], .directory) := by
  refine FileSystem.find_eq_directory_iff.mpr ⟨FileSystem.checkPath_eq_ok_iff.mpr ?_, ?_, rfl⟩
  · refine ⟨by simp [slashed], by simp [slashed], ?_⟩
    rw [size_slashed]
    exact short
  · have origin : loneFile.start (slashed n) = [] := by
      rw [FileSystem.start]
      split <;> rfl
    rw [origin, steps_slashed]
    rfl

theorem file_of_loneFile {name : String} :
    (∃ content, loneFile.node? (["d"] ++ [name]) = some (.file content)) ↔ name = "a.pem" := by
  simp only [FileSystem.node?_concat, FileSystem.lookup_eq_some_iff]
  simp [loneFile]

section LongPath

variable {p : Path} {name : String}

theorem size_join_of_full (full : p.text.utf8ByteSize = FileSystem.pathLimit)
    (written : name ≠ "") : FileSystem.pathLimit < (p.join name).text.utf8ByteSize := by
  have size : p.text.utf8ByteSize + name.utf8ByteSize ≤ (p.join name).text.utf8ByteSize :=
    Path.size_join_le
  have positive : 0 < name.utf8ByteSize := Nat.pos_of_ne_zero (by simpa using written)
  omega

variable (found : loneFile.find p = .ok (["d"], .directory))
include found

theorem holds_loneFile : Holds loneFile p ["a.pem"] := by
  refine ⟨⟨["d"], found, fun name => ?_⟩, List.pairwise_singleton _ _⟩
  rw [List.mem_singleton, file_of_loneFile, iff_self_and]
  rintro rfl
  exact ⟨"a", "pem", by decide, rfl, by decide +kernel⟩

variable (full : p.text.utf8ByteSize = FileSystem.pathLimit)
include full

theorem lists_nothing : loneFile.Lists p [] := by
  refine ⟨⟨["d"], found, rfl, fun name => iff_of_false List.not_mem_nil ?_⟩, .nil⟩
  rintro ⟨⟨content, node⟩, -, short⟩
  obtain ⟨written, -⟩ := FileSystem.isName_iff.mp (FileSystem.isName_of_node? node)
  exact absurd short (Nat.not_le.mpr (size_join_of_full full written))

theorem loadIn_loneFile : loadIn ⟨loneFile, []⟩ (p.join "a.pem") =
    FileSource.parse (p.join "a.pem") (.error .nameTooLong) := by
  have lost := FileSystem.find_join found (show FileSystem.isName "a.pem" = true by decide)
  rw [if_pos (size_join_of_full full (by decide))] at lost
  rw [FileSource.loadIn_eq, FileSource.profilesAt, FileSystem.read, lost]
  rfl

theorem firstAnswer_loneFile : firstAnswer number [p] ⟨loneFile, []⟩ .any = .ok [] := by
  have same : contents loneFile ([] ++ [].map p.join ++ []) = contents loneFile ([] ++ [p]) :=
    FileSource.contents_listed (lists_nothing found full)
  have nothing : contents loneFile [p] = .ok [] := same.symm.trans rfl
  rw [firstAnswer_of_ok (w := ⟨loneFile, []⟩) nothing]
  rfl

end LongPath

/-- A file that no path is short enough to reach through its directory is left out. -/
theorem not_first_answer_of_long_path :
    ¬ ∀ number p w c names, Holds w.files p names →
      ∀ before name after f, names = before ++ name :: after →
        (∀ m ∈ before, ∃ ps, loadIn w (p.join m) = .ok ps) → loadIn w (p.join name) = .error f →
          firstAnswer number [p] w c = .error f.toQueryFailure := by
  intro claimed
  have found := find_slashed (n := 4094) (by decide)
  have full := size_slashed 4094
  have refused := claimed 0 (slashed 4094) ⟨loneFile, []⟩ .any ["a.pem"] (holds_loneFile found)
    [] "a.pem" [] _ rfl (by simp) (loadIn_loneFile found full)
  rw [firstAnswer_loneFile found full] at refused
  cases refused

end Shelf

end TrustRoles
