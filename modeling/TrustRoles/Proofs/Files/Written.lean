import TrustRoles.Proofs.Files.Name

namespace TrustRoles

namespace Path

theorem mem_splitAtSlash {cs w : List Char} (h : w ∈ splitAtSlash cs) :
    ∀ c ∈ w, c ∈ cs ∧ c ≠ '/' := by
  induction cs generalizing w with
  | nil =>
      rw [splitAtSlash, List.mem_singleton] at h
      simp [h]
  | cons d cs ih =>
      obtain ⟨first, others, split⟩ := List.exists_cons_of_ne_nil (splitAtSlash_ne_nil cs)
      rw [split] at ih
      have later {w : List Char} (mem : w ∈ first :: others) : ∀ c ∈ w, c ∈ d :: cs ∧ c ≠ '/' :=
        fun c among => ⟨List.mem_cons_of_mem d (ih mem c among).1, (ih mem c among).2⟩
      rw [splitAtSlash, split] at h
      by_cases slash : d = '/'
      · rw [if_pos slash] at h
        rcases List.mem_cons.mp h with rfl | mem
        · exact List.forall_mem_nil _
        · exact later mem
      · rw [if_neg slash] at h
        rcases List.mem_cons.mp h with rfl | mem
        · exact List.forall_mem_cons.mpr ⟨⟨List.mem_cons_self, slash⟩, later List.mem_cons_self⟩
        · exact later (List.mem_cons_of_mem _ mem)

theorem mem_steps {p : Path} {step : String} (h : step ∈ p.steps) :
    step ≠ "" ∧ ∀ c ∈ step.toList, c ∈ p.text.toList ∧ c ≠ '/' := by
  obtain ⟨w, mem, rfl⟩ := List.mem_map.mp h
  obtain ⟨among, nonempty⟩ := List.mem_filter.mp mem
  rw [String.toList_ofList]
  refine ⟨?_, mem_splitAtSlash among⟩
  rintro empty
  have nothing := congrArg String.toList empty
  simp_all

end Path

namespace FileSystem

variable {fs made : FileSystem} {p : Path} {loc origin : Location} {step name : String}
  {content : List UInt8} {n : Node}

theorem isName_of_filed (filed : fs.node? loc = some n) : ∀ name ∈ loc, isName name = true := by
  cases loc with
  | nil => exact List.forall_mem_nil _
  | cons first later => exact fs.named _ (lookup_eq_some_iff.mp filed)

theorem isName_of_step (legal : checkPath p = .ok ()) (mem : step ∈ p.steps)
    (moves : ¬ (step = "." ∨ step = "..")) (short : step.utf8ByteSize ≤ nameLimit) :
    isName step = true := by
  obtain ⟨noNul, -, -⟩ := checkPath_eq_ok_iff.mp legal
  obtain ⟨notHere, notUp⟩ := not_or.mp moves
  obtain ⟨nonempty, clean⟩ := Path.mem_steps mem
  exact isName_iff.mpr ⟨nonempty, notHere, notUp, fun slash => (clean _ slash).2 rfl,
    fun nul => noNul (clean _ nul).1, short⟩

theorem container_eq_ok {reversed : List String} (h : fs.container origin reversed = .ok loc) :
    fs.walk origin reversed.reverse = .ok loc ∧ fs.node? loc = some .directory := by
  cases walked : fs.walk origin reversed.reverse with
  | error e =>
      rw [container, walked] at h
      cases h
  | ok at_ =>
      rw [container, walked] at h
      dsimp only [bind, Except.bind] at h
      split at h
      · cases h
      · cases h
      · rename_i directory
        cases h
        exact ⟨rfl, directory⟩

structure Writes (fs : FileSystem) (p : Path) (content : List UInt8) (made : FileSystem)
    (loc : Location) (before : List String) (name : String) : Prop where
  legal : checkPath p = .ok ()
  steps : p.steps = before ++ [name]
  walked : fs.walk (fs.start p) before = .ok loc
  directory : fs.node? loc = some .directory
  proper : isName name = true
  noSlash : p.endsInSlash = false
  free : fs.node? (loc ++ [name]) ≠ some .directory
  filed : made = fs.put (loc ++ [name]) (.file content)

theorem exists_writes (h : fs.write p content = .ok made) :
    ∃ loc before name, fs.Writes p content made loc before name := by
  cases legal : checkPath p with
  | error e =>
      rw [write, legal] at h
      cases h
  | ok _ =>
      rw [write, legal] at h
      dsimp only [bind, Except.bind] at h
      cases steps : p.steps.reverse with
      | nil =>
          rw [steps] at h
          cases h
      | cons name before =>
          rw [steps] at h
          dsimp only at h
          cases found : fs.container (fs.start p) before with
          | error e =>
              rw [found] at h
              cases h
          | ok loc =>
              rw [found] at h
              dsimp only at h
              split at h
              case isTrue => cases h
              rename_i usual
              split at h
              case isTrue => cases h
              rename_i short
              split at h
              case isTrue => cases h
              rename_i free
              cases h
              obtain ⟨walked, directory⟩ := container_eq_ok found
              have steps' : p.steps = before.reverse ++ [name] := by
                rw [← List.reverse_reverse p.steps, steps, List.reverse_cons]
              have proper := isName_of_step legal (by simp [steps'])
                (fun moves => usual (moves.imp_right .inl)) (Nat.not_lt.mp short)
              have noSlash : p.endsInSlash = false :=
                Bool.eq_false_iff.mpr fun slash => usual (.inr (.inr slash))
              exact ⟨loc, before.reverse, name, legal, steps', walked, directory, proper, noSlash,
                free, rfl⟩

theorem directory_of_enter (h : fs.enter origin step = .ok loc) :
    fs.node? origin = some .directory := by
  rw [enter] at h
  split at h
  · cases h
  · cases h
  · assumption

theorem enter_congr {other : FileSystem} (h : other.node? origin = fs.node? origin) :
    other.enter origin step = fs.enter origin step := by
  rw [enter, enter, h]

theorem walk_put {target : Location} {steps : List String}
    (proper : ∀ name ∈ target, isName name = true) (free : fs.node? target ≠ some .directory)
    (walked : fs.walk origin steps = .ok loc) : (fs.put target n).walk origin steps = .ok loc := by
  -- A walk goes on from directories only, so it never stands at the target.
  induction steps generalizing origin with
  | nil => exact walked
  | cons step steps ih =>
      cases entered : fs.enter origin step with
      | error e =>
          rw [walk, entered] at walked
          cases walked
      | ok next =>
          have deep : target ≠ [] := by
            rintro rfl
            exact free rfl
          have apart : origin ≠ target := by
            rintro rfl
            exact free (directory_of_enter entered)
          have same : (fs.put target n).node? origin = fs.node? origin := by
            rw [node?_put deep proper, if_neg apart]
          rw [walk, entered] at walked
          rw [walk, enter_congr same, entered]
          exact ih walked

theorem workingDirectory_put (fs : FileSystem) (loc : Location) (n : Node) :
    (fs.put loc n).workingDirectory = fs.workingDirectory := by
  unfold put
  split <;> rfl

theorem walk_concat {before : List String} (walked : fs.walk origin before = .ok loc)
    (directory : fs.node? loc = some .directory) (proper : isName name = true) :
    fs.walk origin (before ++ [name]) = .ok (loc ++ [name]) := by
  rw [walk_append, walked]
  change (fs.enter loc name).bind _ = _
  rw [enter_name directory proper]
  rfl

theorem node?_of_writes {before : List String} (writes : fs.Writes p content made loc before name)
    (other : Location) : made.node? other =
      if other = loc ++ [name] then some (.file content) else fs.node? other := by
  have named : ∀ step ∈ loc ++ [name], isName step = true :=
    List.forall_mem_append.mpr
      ⟨isName_of_filed writes.directory, List.forall_mem_singleton.mpr writes.proper⟩
  rw [writes.filed]
  exact node?_put (List.concat_ne_nil name loc) named (.file content) other

theorem find_of_writes {before : List String} (writes : fs.Writes p content made loc before name) :
    made.find p = .ok (loc ++ [name], .file content) := by
  have filed := node?_of_writes writes
  have directory : made.node? loc = some .directory := by
    rw [filed, if_neg (by simp), writes.directory]
  have start : made.start p = fs.start p := by
    rw [writes.filed, FileSystem.start, FileSystem.start, workingDirectory_put]
  have stays : made.walk (made.start p) before = .ok loc := by
    have named : ∀ step ∈ loc ++ [name], isName step = true :=
      isName_of_filed ((filed _).trans (if_pos rfl))
    rw [start, writes.filed]
    exact walk_put named writes.free writes.walked
  have walked : made.walk (made.start p) p.steps = .ok (loc ++ [name]) := by
    rw [writes.steps]
    exact walk_concat stays directory writes.proper
  rw [find_of_walk writes.legal walked, filed, if_pos rfl, writes.noSlash]
  rfl

theorem find_of_write (h : fs.write p content = .ok made) :
    ∃ loc, made.find p = .ok (loc, .file content) := by
  obtain ⟨loc, before, name, writes⟩ := exists_writes h
  exact ⟨loc ++ [name], find_of_writes writes⟩

theorem read_of_write (h : fs.write p content = .ok made) : made.read p = .ok content := by
  obtain ⟨loc, found⟩ := find_of_write h
  rw [read, found]
  rfl

theorem isPresent_of_write (h : fs.write p content = .ok made) : made.isPresent p = true := by
  obtain ⟨loc, found⟩ := find_of_write h
  rw [isPresent, found]
  rfl

end FileSystem

end TrustRoles
