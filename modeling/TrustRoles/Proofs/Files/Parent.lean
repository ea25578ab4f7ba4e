import TrustRoles.Proofs.Files.Name

namespace TrustRoles.Path

variable {as bs cs : List Char} {p d : Path}

def words (cs : List Char) : List String :=
  ((splitAtSlash cs).filter fun w => !w.isEmpty).map String.ofList

theorem words_slash (as bs : List Char) : words (as ++ '/' :: bs) = words as ++ words bs := by
  rw [words, splitAtSlash_append, List.filter_append, List.map_append, words, words]

theorem words_slash_end (as : List Char) : words (as ++ ['/']) = words as := by
  have nothing : words [] = [] := rfl
  rw [words_slash, nothing, List.append_nil]

theorem words_of_not_mem (whole : '/' ∉ cs) (written : cs ≠ []) : words cs = [String.ofList cs] := by
  have nonempty : (!cs.isEmpty) = true := by simpa using written
  rw [words, splitAtSlash_of_not_mem whole]
  simp [nonempty]

theorem words_trimEnd (cs : List Char) :
    ∃ rest, words cs.reverse = words (trimEnd cs).reverse ++ rest := by
  fun_induction trimEnd cs with
  | case1 => exact ⟨[], rfl⟩
  | case2 => exact ⟨[], rfl⟩
  | case3 c cs ih =>
      obtain ⟨rest, split⟩ := ih
      refine ⟨rest, ?_⟩
      rw [List.reverse_cons, words_slash_end, split]
  | case4 cs ih =>
      obtain ⟨rest, split⟩ := ih
      rw [List.reverse_cons, words_slash_end] at split
      refine ⟨rest ++ words ['.'], ?_⟩
      rw [List.reverse_cons, List.reverse_cons, List.append_assoc, List.singleton_append,
        words_slash, split, List.append_assoc]
  | case5 c cs => exact ⟨[], (List.append_nil _).symm⟩

theorem getLast?_trimEnd (cs : List Char) : (trimEnd cs).getLast? = cs.getLast? := by
  fun_induction trimEnd cs with
  | case1 => rfl
  | case2 => rfl
  | case3 c cs ih => rw [ih, List.getLast?_cons_cons]
  | case4 cs ih => rw [ih, List.getLast?_cons_cons]
  | case5 => rfl

theorem trimEnd_ends (cs : List Char) :
    (∀ rest, trimEnd cs = '/' :: rest → rest = []) ∧ ∀ rest, trimEnd cs ≠ '.' :: '/' :: rest := by
  fun_induction trimEnd cs with
  | case1 => simp
  | case2 => simp
  | case3 c cs ih => exact ih
  | case4 cs ih => exact ih
  | case5 c cs notRoot notSlash notHere =>
      refine ⟨fun rest same => ?_, fun rest same => ?_⟩
      · obtain ⟨slash, -⟩ := List.cons.inj same
        cases cs with
        | nil => exact (notRoot slash rfl).elim
        | cons c' cs => exact (notSlash c' cs slash rfl).elim
      · obtain ⟨dot, slash⟩ := List.cons.inj same
        exact notHere rest dot slash

theorem split_at_slash (cs : List Char) :
    ∃ last up, cs = last ++ up ∧ (cs.dropWhile fun c => c != '/') = up ∧ '/' ∉ last ∧
      (up = [] ∨ ∃ above, up = '/' :: above) := by
  refine ⟨_, _, List.takeWhile_append_dropWhile.symm, rfl, fun slash => ?_, ?_⟩
  · have passed := List.all_eq_true.mp List.all_takeWhile _ slash
    simp at passed
  · cases stopped : cs.dropWhile fun c => c != '/' with
    | nil => exact .inl rfl
    | cons c above =>
        have stop := List.head?_dropWhile_not (fun c => c != '/') cs
        rw [stopped] at stop
        obtain rfl : c = '/' := by simpa using stop
        exact .inr ⟨above, rfl⟩

theorem toList_parent? (h : p.parent? = some d) :
    trimEnd p.text.toList.reverse ≠ ['/'] ∧ d.text.toList =
      (trimEnd ((trimEnd p.text.toList.reverse).dropWhile fun c => c != '/')).reverse := by
  rw [parent?] at h
  split at h
  · cases h
  · cases h
  · rename_i notRoot
    obtain rfl := Option.some.inj h
    exact ⟨notRoot, String.toList_ofList⟩

theorem parent?_eq_some (h : p.parent? = some d) :
    d.text = "" ∨ d.isAbsolute = p.isAbsolute ∧ ∃ before name rest,
      p.steps = before ++ name :: rest ∧ name ≠ "." ∧ d.steps <+: before := by
  obtain ⟨notRoot, text⟩ := toList_parent? h
  obtain ⟨notSlash, notHere⟩ := trimEnd_ends p.text.toList.reverse
  obtain ⟨rest, trimmed⟩ := words_trimEnd p.text.toList.reverse
  have kept := getLast?_trimEnd p.text.toList.reverse
  rw [List.reverse_reverse] at trimmed
  obtain ⟨last, up, split, stopped, whole, outermost | ⟨above, enclosed⟩⟩ :=
    split_at_slash (trimEnd p.text.toList.reverse)
  · rw [stopped, outermost] at text
    exact .inl (String.toList_eq_nil_iff.mp text)
  · rw [stopped, enclosed] at text
    rw [enclosed] at split
    rw [split] at notRoot notSlash notHere trimmed kept
    have written : last ≠ [] := by
      rintro rfl
      exact notRoot (congrArg (List.cons '/') (notSlash above rfl))
    have moves : last ≠ ['.'] := by
      rintro rfl
      exact notHere above rfl
    obtain ⟨between, prefix'⟩ := words_trimEnd ('/' :: above)
    rw [List.reverse_cons, words_slash_end, ← text] at prefix'
    refine .inr ⟨?_, words above.reverse, String.ofList last.reverse, rest, ?_, ?_, between,
      prefix'.symm⟩
    · rw [List.getLast?_append, List.getLast?_cons, Option.some_or, List.getLast?_reverse] at kept
      rw [isAbsolute, isAbsolute, text, List.head?_reverse, getLast?_trimEnd, List.getLast?_cons,
        kept]
    · have whole' : '/' ∉ last.reverse := fun slash => whole (List.mem_reverse.mp slash)
      have step := words_of_not_mem whole' (mt List.reverse_eq_nil_iff.mp written)
      change words p.text.toList = _
      rw [trimmed, List.reverse_append, List.reverse_cons, List.append_assoc,
        List.singleton_append, words_slash, step, List.append_assoc, List.singleton_append]
    · intro here
      have dot := congrArg String.toList here
      rw [String.toList_ofList] at dot
      exact moves (by simpa using congrArg List.reverse dot)

end TrustRoles.Path
