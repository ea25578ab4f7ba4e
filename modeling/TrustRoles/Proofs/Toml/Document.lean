import TrustRoles.Proofs.Toml.Quoted
import TrustRoles.Toml.Document

namespace TrustRoles.Toml

variable {c : Char} {cs rest text gap : List Char} {v : Value} {depth fuel : Nat}

def EndsGap (c : Char) : Prop :=
  isBlank c = false ∧ c ≠ '\n' ∧ c ≠ '\r' ∧ c ≠ '#'

instance (c : Char) : Decidable (EndsGap c) :=
  inferInstanceAs (Decidable (_ ∧ _))

theorem dropBlanks_cons (h : isBlank c = false) : dropBlanks (c :: cs) = c :: cs := by
  simp [dropBlanks, h]

theorem dropSpace_append (h : ∀ g ∈ gap, isBlank g = true ∨ g = '\n') :
    dropSpace (gap ++ cs) = dropSpace cs := by
  induction gap with
  | nil => rfl
  | cons g gap ih =>
      obtain ⟨here, later⟩ := List.forall_mem_cons.mp h
      have noReturn : g ≠ '\r' := by
        rintro rfl
        exact absurd here (by decide)
      simp [dropSpace, noReturn, here, ih later]

theorem dropSpace_cons (h : EndsGap c) : dropSpace (c :: cs) = c :: cs := by
  obtain ⟨solid, noBreak, noReturn, -⟩ := h
  simp [dropSpace, solid, noBreak, noReturn]

theorem dropGap_append (blank : ∀ g ∈ gap, isBlank g = true ∨ g = '\n') (ends : EndsGap c) :
    dropGap (gap ++ c :: cs) = c :: cs := by
  have noMark := ends.2.2.2
  simp [dropGap, dropGapWithin, dropSpace_append blank, dropSpace_cons ends, noMark]

theorem dropGap_cons (ends : EndsGap c) : dropGap (c :: cs) = c :: cs :=
  dropGap_append (List.forall_mem_nil _) ends

def Follows (rest : List Char) : Prop :=
  ∃ c later, rest = c :: later ∧ (c = '\n' ∨ c = ',' ∨ c = ']')

structure Spells (depth : Nat) (text : List Char) (v : Value) : Prop where
  starts : ∃ c cs, text = c :: cs ∧ EndsGap c ∧ c ≠ ']'
  reads : ∀ {fuel : Nat} {rest : List Char}, text.length < fuel → Follows rest →
    value? fuel depth (text ++ rest) = some (v, rest)

theorem Spells.dropGap_append (spells : Spells depth text v)
    (blank : ∀ g ∈ gap, isBlank g = true ∨ g = '\n') (rest : List Char) :
    dropGap (gap ++ (text ++ rest)) = text ++ rest := by
  obtain ⟨c, cs, starts, ends, -⟩ := spells.starts
  rw [starts]
  exact Toml.dropGap_append blank ends

theorem exists_writtenString (cs : List Char) :
    ∃ later, writtenString cs = '"' :: later ∨ writtenString cs = '\'' :: later := by
  rw [writtenString]
  cases chooseForm cs
  · exact ⟨_, .inl rfl⟩
  · exact ⟨_, .inr rfl⟩
  · exact ⟨_, .inl rfl⟩
  · exact ⟨_, .inr rfl⟩

theorem spells_text (depth : Nat) (cs : List Char) :
    Spells depth (writtenString cs) (.text (String.ofList cs)) := by
  obtain ⟨later, written⟩ := exists_writtenString cs
  constructor
  · rcases written with written | written
    · exact ⟨'"', later, written, by decide, by decide⟩
    · exact ⟨'\'', later, written, by decide, by decide⟩
  · rintro fuel rest enough ⟨c, more, rfl, follows⟩
    obtain ⟨fuel, rfl⟩ := Nat.exists_eq_add_one_of_ne_zero (Nat.ne_zero_of_lt enough)
    have read : string? (writtenString cs ++ c :: more) = some (cs, c :: more) := by
      apply string?_writtenString <;> rcases follows with rfl | rfl | rfl <;> simp
    rcases written with written | written <;>
      rw [written, List.cons_append] at read ⊢ <;> rw [value?, read] <;> rfl

theorem spells_boolean (depth : Nat) (b : Bool) :
    Spells depth (writtenBoolean b) (.boolean b) := by
  constructor
  · cases b
    · exact ⟨'f', "alse".toList, rfl, by decide, by decide⟩
    · exact ⟨'t', "rue".toList, rfl, by decide, by decide⟩
  · rintro fuel rest enough ⟨c, more, rfl, follows⟩
    obtain ⟨fuel, rfl⟩ := Nat.exists_eq_add_one_of_ne_zero (Nat.ne_zero_of_lt enough)
    rcases follows with rfl | rfl | rfl <;> cases b <;> rfl

theorem follows_close (rest : List Char) : Follows (']' :: rest) :=
  ⟨_, _, rfl, .inr (.inr rfl)⟩

theorem follows_comma (rest : List Char) : Follows (',' :: rest) :=
  ⟨_, _, rfl, .inr (.inl rfl)⟩

theorem items?_spells (spells : Spells depth text v) (enough : text.length < fuel) :
    items? (fuel + 1) depth (text ++ ',' :: rest) =
        (items? fuel depth (dropGap rest)).map (fun r => (v :: r.1, r.2)) ∧
      items? (fuel + 1) depth (text ++ ']' :: rest) = some ([v], rest) := by
  obtain ⟨c, cs, starts, -, open_⟩ := spells.starts
  have comma := spells.reads enough (follows_comma rest)
  have close := spells.reads enough (follows_close rest)
  have noGap : dropGap (',' :: rest) = ',' :: rest := dropGap_cons (by decide)
  have noGap' : dropGap (']' :: rest) = ']' :: rest := dropGap_cons (by decide)
  rw [starts, List.cons_append] at comma close ⊢
  constructor
  · simp [items?, open_, comma, noGap]
  · simp [items?, open_, close, noGap']

theorem arrayLine_eq (item : List Char) :
    arrayLine item = List.replicate 4 ' ' ++ (item ++ [',', '\n']) :=
  List.append_assoc ..

theorem items?_lines {items : List (List Char × Value)} (h : ∀ i ∈ items, Spells depth i.1 i.2)
    (enough : (items.flatMap fun i => arrayLine i.1).length < fuel) :
    items? fuel depth (dropGap ('\n' :: (items.flatMap (fun i => arrayLine i.1) ++ ']' :: rest))) =
      some (items.map Prod.snd, rest) := by
  induction items generalizing fuel with
  | nil =>
      obtain ⟨fuel, rfl⟩ := Nat.exists_eq_add_one_of_ne_zero (Nat.ne_zero_of_lt enough)
      have gap : ∀ g ∈ ['\n'], isBlank g = true ∨ g = '\n' := by simp
      have reached : dropGap ('\n' :: ']' :: rest) = ']' :: rest :=
        dropGap_append gap (by decide)
      rw [List.flatMap_nil, List.nil_append, reached, items?]
      rfl
  | cons i items ih =>
      obtain ⟨fuel, rfl⟩ := Nat.exists_eq_add_one_of_ne_zero (Nat.ne_zero_of_lt enough)
      obtain ⟨here, later⟩ := List.forall_mem_cons.mp h
      have gap : ∀ g ∈ '\n' :: List.replicate 4 ' ', isBlank g = true ∨ g = '\n' :=
        List.forall_mem_cons.mpr ⟨.inr rfl, fun g mem => .inl (List.eq_of_mem_replicate mem ▸ rfl)⟩
      have reached (more : List Char) :
          dropGap ('\n' :: (List.replicate 4 ' ' ++ (i.1 ++ more))) = i.1 ++ more :=
        here.dropGap_append gap more
      simp only [List.flatMap_cons, arrayLine_eq, List.length_append, List.length_replicate,
        List.length_cons] at enough
      rw [List.flatMap_cons, arrayLine_eq, List.append_assoc, List.append_assoc, List.append_assoc,
        reached, List.cons_append, List.cons_append, List.nil_append,
        (items?_spells here (by omega)).1, ih later (by simp only [arrayLine_eq]; omega)]
      rfl

theorem spells_array {items : List (List Char × Value)} (h : ∀ i ∈ items, Spells depth i.1 i.2) :
    Spells (depth + 1) (writtenArray (items.map Prod.fst)) (.array (items.map Prod.snd)) := by
  have opened (fuel : Nat) (rest : List Char) : value? (fuel + 1) (depth + 1) ('[' :: rest) =
      (items? fuel depth (dropGap rest)).map fun r => (.array r.1, r.2) := by
    rw [value?]
  constructor
  · match items with
    | [] | [_] | _ :: _ :: _ => exact ⟨'[', _, rfl, by decide, by decide⟩
  · rintro fuel rest enough -
    obtain ⟨fuel, rfl⟩ := Nat.exists_eq_add_one_of_ne_zero (Nat.ne_zero_of_lt enough)
    match items with
    | [] =>
        obtain ⟨fuel, rfl⟩ := Nat.exists_eq_add_one_of_ne_zero
          (Nat.ne_zero_of_lt (Nat.lt_of_succ_lt_succ enough))
        have noGap : dropGap (']' :: rest) = ']' :: rest := dropGap_cons (by decide)
        rw [List.map_nil, writtenArray, List.cons_append, opened, List.cons_append, List.nil_append,
          noGap, items?]
        rfl
    | [i] =>
        have here := h i List.mem_cons_self
        have noGap (more : List Char) : dropGap (i.1 ++ more) = i.1 ++ more :=
          here.dropGap_append (List.forall_mem_nil _) more
        simp only [List.map_cons, List.map_nil, writtenArray, List.cons_append, List.length_cons,
          List.length_append] at enough
        obtain ⟨fuel, rfl⟩ := Nat.exists_eq_add_one_of_ne_zero
          (Nat.ne_zero_of_lt (Nat.lt_of_succ_lt_succ enough))
        simp only [List.map_cons, List.map_nil, writtenArray, List.cons_append, List.append_assoc,
          List.nil_append]
        rw [opened, noGap, (items?_spells here (by omega)).2]
        rfl
    | i :: j :: items =>
        have written : writtenArray ((i :: j :: items).map Prod.fst) =
            '[' :: '\n' :: ((i :: j :: items).flatMap (fun i => arrayLine i.1) ++ [']']) := by
          simp [writtenArray, List.flatMap_map]
        rw [written] at enough ⊢
        simp only [List.length_cons, List.length_append] at enough
        rw [List.cons_append, opened, List.cons_append, List.append_assoc, List.singleton_append,
          items?_lines h (by omega)]
        rfl

structure Line where
  key : String
  text : List Char
  value : Value

namespace Line

def written (l : Line) : List Char :=
  entryLine l.key l.text

def entry (l : Line) : String × Value :=
  (l.key, l.value)

structure Legal (l : Line) : Prop where
  named : l.key ≠ ""
  bare : ∀ c ∈ l.key.toList, isBareKeyChar c = true
  spells : Spells depthLimit l.text l.value

variable {l : Line}

theorem Legal.starts (legal : l.Legal) (rest : List Char) :
    ∃ c cs, isBareKeyChar c = true ∧ l.written ++ rest = c :: cs := by
  obtain ⟨c, cs, key⟩ := List.exists_cons_of_ne_nil (mt String.toList_eq_nil_iff.mp legal.named)
  refine ⟨c, cs ++ " = ".toList ++ l.text ++ ['\n'] ++ rest, legal.bare c (by simp [key]), ?_⟩
  rw [written, entryLine, key]
  rfl

end Line

theorem ne_of_isBareKeyChar {d : Char} (h : isBareKeyChar c = true)
    (other : isBareKeyChar d = false) : c ≠ d := by
  rintro rfl
  exact absurd (h.symm.trans other) (by decide)

theorem isBlank_of_isBareKeyChar (h : isBareKeyChar c = true) : isBlank c = false := by
  have space := ne_of_isBareKeyChar h (d := ' ') (by decide)
  have tab := ne_of_isBareKeyChar h (d := '\t') (by decide)
  simp [isBlank, space, tab]

theorem simpleKey?_bare {word : List Char} (nonempty : word ≠ [])
    (bare : ∀ c ∈ word, isBareKeyChar c = true) :
    simpleKey? (word ++ ' ' :: rest) = some (String.ofList word, ' ' :: rest) := by
  obtain ⟨c, cs, rfl⟩ := List.exists_cons_of_ne_nil nonempty
  have first := bare c List.mem_cons_self
  have taken : (c :: cs ++ ' ' :: rest).takeWhile isBareKeyChar = c :: cs := by
    rw [List.takeWhile_append_of_pos bare]
    simp [isBareKeyChar]
  have left : (c :: cs ++ ' ' :: rest).dropWhile isBareKeyChar = ' ' :: rest := by
    rw [List.dropWhile_append_of_pos bare]
    simp [isBareKeyChar]
  rw [simpleKey?]
  · rw [taken, left]
    rfl
  · rintro later same
    exact ne_of_isBareKeyChar first (by decide) (List.cons.inj same).1
  · rintro later same
    exact ne_of_isBareKeyChar first (by decide) (List.cons.inj same).1

theorem key?_bare {word : List Char} (nonempty : word ≠ [])
    (bare : ∀ c ∈ word, isBareKeyChar c = true) :
    key? (word ++ ' ' :: '=' :: rest) = some ([String.ofList word], '=' :: rest) := by
  have noBlank : dropBlanks (word ++ ' ' :: '=' :: rest) = word ++ ' ' :: '=' :: rest := by
    obtain ⟨c, cs, rfl⟩ := List.exists_cons_of_ne_nil nonempty
    exact dropBlanks_cons (isBlank_of_isBareKeyChar (bare c List.mem_cons_self))
  have blank : dropBlanks (' ' :: '=' :: rest) = '=' :: rest := rfl
  simp [key?, keyWithin, noBlank, simpleKey?_bare nonempty bare, blank, depthLimit]

namespace Line

theorem Legal.keyValue? {l : Line} (legal : l.Legal) (rest : List Char) :
    keyValue? (l.written ++ rest) = some ([l.key], l.value, '\n' :: rest) := by
  obtain ⟨c, cs, starts, ends, -⟩ := legal.spells.starts
  have read : value? ((' ' :: (l.text ++ '\n' :: rest)).length + 1) depthLimit
      (dropBlanks (' ' :: (l.text ++ '\n' :: rest))) = some (l.value, '\n' :: rest) := by
    have blank : dropBlanks (' ' :: (l.text ++ '\n' :: rest)) = l.text ++ '\n' :: rest := by
      rw [starts]
      exact dropBlanks_cons ends.1
    rw [blank]
    exact legal.spells.reads (by simp; omega) ⟨_, _, rfl, .inl rfl⟩
  have split : l.written ++ rest =
      l.key.toList ++ ' ' :: '=' :: ' ' :: (l.text ++ '\n' :: rest) := by
    rw [written, entryLine]
    simp
  have named := mt String.toList_eq_nil_iff.mp legal.named
  simp only [Toml.keyValue?, split, key?_bare named legal.bare, read, String.ofList_toList,
    Option.bind_eq_bind, Option.bind_some]

end Line

theorem assign_new {es : Entries} {k : String} (h : k ∉ es.map Prod.fst) :
    Draft.assign ⟨es, []⟩ [k] v = some ⟨es ++ [(k, v)], []⟩ := by
  have missing : es.lookup k = none := by
    rw [List.lookup_eq_none_iff]
    intro e mem
    rw [bne_iff_ne]
    rintro rfl
    exact h (List.mem_map_of_mem mem)
  simp [Draft.assign, Entries.descend, Entries.assign, Entries.add, missing]

theorem Line.Legal.statement? {l : Line} (legal : l.Legal) (rest : List Char) {es : Entries}
    (fresh : l.key ∉ es.map Prod.fst) :
    statement? ⟨es, []⟩ (l.written ++ rest) = some (⟨es ++ [l.entry], []⟩, '\n' :: rest) := by
  obtain ⟨c, cs, bare, starts⟩ := legal.starts rest
  have read := legal.keyValue? rest
  have noTable : c ≠ '[' := ne_of_isBareKeyChar bare (by decide)
  rw [starts] at read ⊢
  simp [Toml.statement?, noTable, read, assign_new fresh, Line.entry]

theorem Line.Legal.linesWithin {l : Line} (legal : l.Legal) {es : Entries}
    (fresh : l.key ∉ es.map Prod.fst) :
    linesWithin (fuel + 1) ⟨es, []⟩ (l.written ++ rest) =
      linesWithin fuel ⟨es ++ [l.entry], []⟩ rest := by
  obtain ⟨c, cs, bare, starts⟩ := legal.starts rest
  have read := legal.statement? rest fresh
  have noBlank : dropBlanks (c :: cs) = c :: cs := dropBlanks_cons (isBlank_of_isBareKeyChar bare)
  have content : ¬ (c = '#' ∨ c = '\n' ∨ c = '\r') := by
    rintro (rfl | rfl | rfl) <;> exact absurd bare (by decide)
  have ended : afterLine? ('\n' :: rest) = some rest := rfl
  rw [starts] at read ⊢
  simp only [Toml.linesWithin, noBlank, if_neg content, read, ended, Option.bind_eq_bind,
    Option.bind_some]

theorem linesWithin_written {lines : List Line} (legal : ∀ l ∈ lines, l.Legal) {es : Entries}
    (fresh : (es.map Prod.fst ++ lines.map Line.key).Nodup) (enough : lines.length < fuel) :
    linesWithin fuel ⟨es, []⟩ (lines.flatMap Line.written) =
      some ⟨es ++ lines.map Line.entry, []⟩ := by
  -- The entries so far are those of the lines already read.
  induction lines generalizing fuel es with
  | nil =>
      obtain ⟨fuel, rfl⟩ := Nat.exists_eq_add_one_of_ne_zero (Nat.ne_zero_of_lt enough)
      rw [List.map_nil, List.append_nil]
      rfl
  | cons l lines ih =>
      obtain ⟨here, later⟩ := List.forall_mem_cons.mp legal
      obtain ⟨fuel, rfl⟩ := Nat.exists_eq_add_one_of_ne_zero (Nat.ne_zero_of_lt enough)
      have new : l.key ∉ es.map Prod.fst := fun mem =>
        (List.nodup_append.mp fresh).2.2 _ mem _ List.mem_cons_self rfl
      have others : ((es ++ [l.entry]).map Prod.fst ++ lines.map Line.key).Nodup := by
        simpa [Line.entry] using fresh
      rw [List.flatMap_cons, here.linesWithin new, ih later others (Nat.lt_of_succ_lt_succ enough)]
      simp

theorem length_le_written (lines : List Line) :
    lines.length ≤ (lines.flatMap Line.written).length := by
  induction lines with
  | nil => exact Nat.le_refl _
  | cons l lines ih =>
      simp only [List.flatMap_cons, List.length_append, List.length_cons, Line.written, entryLine]
        at ih ⊢
      omega

theorem document?_written {lines : List Line} (legal : ∀ l ∈ lines, l.Legal)
    (distinct : (lines.map Line.key).Nodup) :
    document? (lines.flatMap Line.written) = some (lines.map Line.entry) := by
  have noMark : withoutMark (lines.flatMap Line.written) = lines.flatMap Line.written := by
    cases lines with
    | nil => rfl
    | cons l lines =>
        obtain ⟨c, cs, bare, starts⟩ :=
          (legal l List.mem_cons_self).starts (lines.flatMap Line.written)
        rw [List.flatMap_cons, starts]
        exact if_neg (ne_of_isBareKeyChar bare (by decide))
  have read : linesWithin _ ⟨[], []⟩ _ = some ⟨[] ++ _, []⟩ :=
    linesWithin_written legal distinct (Nat.lt_succ_of_le (length_le_written lines))
  rw [document?, noMark, Draft.empty, read]
  rfl

end TrustRoles.Toml
