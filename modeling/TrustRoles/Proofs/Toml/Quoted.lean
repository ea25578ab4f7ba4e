import TrustRoles.Toml.Written

namespace TrustRoles.Toml

variable {c q : Char} {cs rest piece : List Char} {block : Bool} {run best fuel : Nat}

inductive Spelled : Char → List Char → Prop where
  | plain {c : Char} (legal : isPlain c = true) (noQuote : c ≠ '"') (noEscape : c ≠ '\\') :
      Spelled c [c]
  | newline : Spelled '\n' ['\n']
  | escape {c mark : Char} {digits : List Char}
      (solid : isBlank mark = false ∧ mark ≠ '\n' ∧ mark ≠ '\r')
      (reads : ∀ rest, escape? (mark :: (digits ++ rest)) = some (c, rest)) :
      Spelled c ('\\' :: mark :: digits)

theorem hexValue?_hexDigitUpper : ∀ n < 16, Text.hexValue? (Text.hexDigitUpper n) = some n := by
  decide

theorem codePoint?_control (h : isControl c = true) :
    codePoint? ['0', '0', Text.hexDigitUpper (c.toNat / 16), Text.hexDigitUpper (c.toNat % 16)] =
      some c := by
  have small : c.toNat < 32 ∨ c.toNat = 127 := by simpa [isControl] using h
  have high := hexValue?_hexDigitUpper (c.toNat / 16) (by omega)
  have low := hexValue?_hexDigitUpper (c.toNat % 16) (by omega)
  have zero : Text.hexValue? '0' = some 0 := rfl
  have value : 16 * (c.toNat / 16) + c.toNat % 16 = c.toNat := Nat.div_add_mod _ _
  have valid : c.toNat.isValidChar := c.valid
  simp [codePoint?, zero, high, low, value, valid]

theorem spelled_escapedChar (h : c ≠ '"') : Spelled c (escapedChar c) := by
  have letter (mark : Char) (solid : isBlank mark = false ∧ mark ≠ '\n' ∧ mark ≠ '\r')
      (reads : ∀ rest, escape? (mark :: rest) = some (c, rest)) : Spelled c ['\\', mark] :=
    .escape solid reads
  unfold escapedChar
  split
  case isTrue backspace => exact letter 'b' (by decide) fun _ => backspace ▸ rfl
  split
  case isTrue tab => exact letter 't' (by decide) fun _ => tab ▸ rfl
  split
  case isTrue feed => exact letter 'f' (by decide) fun _ => feed ▸ rfl
  split
  case isTrue carriage => exact letter 'r' (by decide) fun _ => carriage ▸ rfl
  split
  case isTrue backslash => exact letter '\\' (by decide) fun _ => by rw [backslash]; rfl
  rename_i noEscape
  split
  case isTrue newline => exact newline ▸ .newline
  split
  case isTrue control =>
    refine .escape (by decide) fun rest => ?_
    change Option.map _ (codePoint? _) = _
    rw [codePoint?_control control, Option.map_some]
    rfl
  case isFalse control => exact .plain (by simp [isPlain, control]) h noEscape

theorem escapedFrom_cons (block : Bool) (run : Nat) (c : Char) (cs : List Char) :
    (block = true ∧ run < 2 ∧ c = '"' ∧
      escapedFrom block run (c :: cs) = '"' :: escapedFrom block (run + 1) cs) ∨
    ∃ piece, Spelled c piece ∧
      escapedFrom block run (c :: cs) = piece ++ escapedFrom block 0 cs := by
  rw [escapedFrom]
  by_cases quote : c = '"'
  · rw [if_pos quote]
    by_cases raw : block = true ∧ run < 2
    · exact .inl ⟨raw.1, raw.2, quote, if_pos raw⟩
    · exact .inr ⟨['\\', '"'], .escape (by decide) fun _ => by rw [quote]; rfl, if_neg raw⟩
  · exact .inr ⟨escapedChar c, spelled_escapedChar quote, if_neg quote⟩

theorem Spelled.ne_nil (spelled : Spelled c piece) : piece ≠ [] := by
  cases spelled <;> exact List.cons_ne_nil _ _

theorem Spelled.head?_ne_quote (spelled : Spelled c piece) (rest : List Char) :
    (piece ++ rest).head? ≠ some '"' := by
  cases spelled with
  | plain legal noQuote noEscape => simpa using noQuote
  | newline => simp
  | escape solid reads => simp

theorem length_le_escapedFrom (block : Bool) (run : Nat) (cs : List Char) :
    cs.length ≤ (escapedFrom block run cs).length := by
  induction cs generalizing run with
  | nil => exact Nat.zero_le _
  | cons c cs ih =>
      rcases escapedFrom_cons block run c cs with ⟨-, -, -, written⟩ | ⟨piece, spelled, written⟩
      · rw [written]
        exact Nat.succ_le_succ (ih (run + 1))
      · have nonempty := List.length_pos_iff.mpr spelled.ne_nil
        have rest := ih 0
        rw [written, List.length_append, List.length_cons]
        omega

theorem basic?_spelled (spelled : Spelled c piece) (h : c ≠ '\n') :
    basic? (fuel + 1) (piece ++ rest) = push c (basic? fuel rest) := by
  cases spelled with
  | plain legal noQuote noEscape => simp [basic?, legal]
  | newline => exact absurd rfl h
  | escape solid reads => simp [basic?, reads]

theorem basic?_escapedFrom (oneLine : '\n' ∉ cs) (enough : cs.length < fuel) :
    basic? fuel (escapedFrom false run cs ++ '"' :: rest) = some (cs, rest) := by
  induction cs generalizing fuel run with
  | nil =>
      obtain ⟨fuel, rfl⟩ := Nat.exists_eq_add_one_of_ne_zero (Nat.ne_zero_of_lt enough)
      rfl
  | cons c cs ih =>
      obtain ⟨fuel, rfl⟩ := Nat.exists_eq_add_one_of_ne_zero (Nat.ne_zero_of_lt enough)
      obtain ⟨other, later⟩ := not_or.mp (mt List.mem_cons.mpr oneLine)
      rcases escapedFrom_cons false run c cs with ⟨block, -⟩ | ⟨piece, spelled, written⟩
      · exact absurd block Bool.false_ne_true
      · rw [written, List.append_assoc, basic?_spelled spelled (Ne.symm other),
          ih later (Nat.lt_of_succ_lt_succ enough)]
        rfl

theorem literal?_append (h : ∀ c ∈ cs, isPlain c = true ∧ c ≠ '\'') :
    literal? (cs ++ '\'' :: rest) = some (cs, rest) := by
  induction cs with
  | nil => rfl
  | cons c cs ih =>
      obtain ⟨⟨legal, noQuote⟩, later⟩ := List.forall_mem_cons.mp h
      simp [literal?, legal, noQuote, ih later, push]

theorem closing?_quotes {n : Nat} (few : n ≤ 2) (next : rest.head? ≠ some q) :
    closing? q (List.replicate n q ++ q :: q :: q :: rest) =
      some (some (List.replicate n q, rest)) := by
  rcases rest with _ | ⟨d, _ | ⟨e, rest⟩⟩ <;>
  obtain rfl | rfl | rfl : n = 0 ∨ n = 1 ∨ n = 2 := by omega
  all_goals simp_all [closing?, List.replicate]

theorem closing?_eq_none (h : ¬ [q, q, q] <+: cs) : closing? q cs = none := by
  match cs with
  | [] | [a] | [a, b] => rfl
  | [a, b, c] | [a, b, c, d] | a :: b :: c :: d :: e :: cs =>
      have apart : ¬ (a = q ∧ b = q ∧ c = q) := by
        rintro ⟨rfl, rfl, rfl⟩
        exact h (by simp [List.cons_prefix_cons])
      exact if_neg apart

theorem closing?_of_front (few : ¬ [q, q, q] <+: cs) (next : rest.head? ≠ some q) :
    ((∀ c ∈ cs, c = q) ∧ closing? q (cs ++ q :: q :: q :: rest) = some (some (cs, rest))) ∨
    closing? q (cs ++ q :: q :: q :: rest) = none := by
  by_cases quotes : ∀ c ∈ cs, c = q
  · have same : cs = List.replicate cs.length q := List.eq_replicate_iff.mpr ⟨rfl, quotes⟩
    have short : cs.length ≤ 2 := by
      refine Nat.le_of_not_lt fun long => few ?_
      rw [same]
      exact List.prefix_replicate_iff.mpr ⟨long, rfl⟩
    rw [same]
    exact .inl ⟨same ▸ quotes, closing?_quotes short next⟩
  · refine .inr (closing?_eq_none fun front => ?_)
    rcases List.prefix_or_prefix_of_prefix front (List.prefix_append cs _) with long | short
    · exact few long
    · exact quotes fun c mem => by simpa using short.subset mem

theorem best_le_longestRunFrom (q : Char) (run best : Nat) (cs : List Char) :
    best ≤ longestRunFrom q run best cs := by
  induction cs generalizing run best with
  | nil => exact Nat.le_refl _
  | cons c cs ih =>
      rw [longestRunFrom]
      split
      · exact Nat.le_trans (Nat.le_max_left _ _) (ih _ _)
      · exact ih _ _

theorem longestRunFrom_mono {run' best' : Nat} (runs : run ≤ run') (bests : best ≤ best') :
    longestRunFrom q run best cs ≤ longestRunFrom q run' best' cs := by
  induction cs generalizing run run' best best' with
  | nil => exact bests
  | cons c cs ih =>
      rw [longestRunFrom, longestRunFrom]
      split
      · exact ih (Nat.succ_le_succ runs) (by omega)
      · exact ih (Nat.le_refl 0) bests

theorem longestRun_le_cons (q c : Char) (cs : List Char) :
    longestRun q cs ≤ longestRun q (c :: cs) := by
  rw [longestRun, longestRun, longestRunFrom]
  split <;> exact longestRunFrom_mono (Nat.zero_le _) (Nat.zero_le _)

theorem longestRun_pos (h : q ∈ cs) : 0 < longestRun q cs := by
  induction cs with
  | nil => cases h
  | cons c cs ih =>
      rcases List.mem_cons.mp h with rfl | later
      · have here := best_le_longestRunFrom q 1 1 cs
        rw [longestRun, longestRunFrom, if_pos rfl]
        exact here
      · exact Nat.lt_of_lt_of_le (ih later) (longestRun_le_cons q c cs)

theorem front_of_longestRun (h : longestRun q cs ≤ 2) : ¬ [q, q, q] <+: cs := by
  rintro ⟨later, rfl⟩
  have here := best_le_longestRunFrom q 3 3 later
  simp [longestRun, longestRunFrom] at h
  omega

theorem ne_return (h : isPlain c = true ∨ c = '\n') : c ≠ '\r' := by
  rintro rfl
  exact absurd h (by decide)

theorem blockLiteral?_append (legal : ∀ c ∈ cs, isPlain c = true ∨ c = '\n')
    (few : longestRun '\'' cs ≤ 2) (next : rest.head? ≠ some '\'') (enough : cs.length < fuel) :
    blockLiteral? fuel (cs ++ '\'' :: '\'' :: '\'' :: rest) = some (cs, rest) := by
  induction cs generalizing fuel with
  | nil =>
      obtain ⟨fuel, rfl⟩ := Nat.exists_eq_add_one_of_ne_zero (Nat.ne_zero_of_lt enough)
      have closed := closing?_quotes (Nat.zero_le 2) next
      simp only [List.replicate_zero, List.nil_append] at closed
      simp only [blockLiteral?, List.nil_append, closed]
  | cons c cs ih =>
      obtain ⟨fuel, rfl⟩ := Nat.exists_eq_add_one_of_ne_zero (Nat.ne_zero_of_lt enough)
      obtain ⟨here, later⟩ := List.forall_mem_cons.mp legal
      have noReturn := ne_return here
      rcases closing?_of_front (front_of_longestRun few) next with ⟨-, closed⟩ | opened
      · simp only [blockLiteral?, closed]
      · have read := ih later (Nat.le_trans (longestRun_le_cons _ c cs) few)
          (Nat.lt_of_succ_lt_succ enough)
        rw [List.cons_append] at opened ⊢
        simp [blockLiteral?, opened, here, noReturn, read, push]

theorem blockBasic?_spelled (spelled : Spelled c piece) :
    blockBasic? (fuel + 1) (piece ++ rest) = push c (blockBasic? fuel rest) := by
  have opened : closing? '"' (piece ++ rest) = none :=
    closing?_eq_none fun ⟨later, front⟩ => spelled.head?_ne_quote rest (by rw [← front]; rfl)
  cases spelled with
  | plain legal noQuote noEscape =>
      have noReturn := ne_return (.inl legal)
      rw [List.singleton_append] at opened ⊢
      simp [blockBasic?, opened, legal, noReturn]
  | newline =>
      rw [List.singleton_append] at opened ⊢
      simp [blockBasic?, opened]
  | @escape c mark digits solid reads =>
      obtain ⟨noBlank, noBreak, noReturn⟩ := solid
      have joined : afterNewline? (dropBlanks (mark :: (digits ++ rest))) = none := by
        simp [dropBlanks, noBlank, afterNewline?, noBreak, noReturn]
      rw [List.cons_append, List.cons_append] at opened ⊢
      simp [blockBasic?, opened, joined, reads]

theorem front_escapedFrom (few : run ≤ 2) :
    ¬ List.replicate (3 - run) '"' <+: escapedFrom true run cs := by
  obtain ⟨n, left⟩ : ∃ n, 3 - run = n + 1 := ⟨2 - run, by omega⟩
  induction cs generalizing run n with
  | nil => simp [escapedFrom, left]
  | cons c cs ih =>
      rw [left, List.replicate_succ]
      rcases escapedFrom_cons true run c cs with ⟨-, room, -, written⟩ | ⟨piece, spelled, written⟩
      · rw [written, List.cons_prefix_cons]
        rintro ⟨-, front⟩
        have left' : 3 - (run + 1) = n := by omega
        exact ih (Nat.succ_le_of_lt room) (n - 1) (by omega) (left' ▸ front)
      · rw [written]
        rintro ⟨later, front⟩
        exact spelled.head?_ne_quote _ (by rw [← front]; rfl)

theorem escapedFrom_of_quotes (quotes : ∀ c ∈ escapedFrom block run cs, c = '"') :
    escapedFrom block run cs = cs := by
  induction cs generalizing run with
  | nil => rfl
  | cons c cs ih =>
      rcases escapedFrom_cons block run c cs with ⟨-, -, rfl, written⟩ | ⟨piece, spelled, written⟩
      · rw [written] at quotes ⊢
        rw [ih (List.forall_mem_cons.mp quotes).2]
      · obtain ⟨first, later, rfl⟩ := List.exists_cons_of_ne_nil spelled.ne_nil
        have quote : first = '"' := quotes first (by rw [written]; exact List.mem_cons_self)
        exact absurd (congrArg some quote) (spelled.head?_ne_quote [])

theorem blockBasic?_escapedFrom (few : run ≤ 2) (next : rest.head? ≠ some '"')
    (enough : cs.length < fuel) :
    blockBasic? fuel (escapedFrom true run cs ++ '"' :: '"' :: '"' :: rest) = some (cs, rest) := by
  -- `run` quotes stand for themselves right before the text, and at most two in a row ever do.
  induction cs generalizing fuel run with
  | nil =>
      obtain ⟨fuel, rfl⟩ := Nat.exists_eq_add_one_of_ne_zero (Nat.ne_zero_of_lt enough)
      have closed := closing?_quotes (Nat.zero_le 2) next
      simp only [List.replicate_zero, List.nil_append] at closed
      simp only [escapedFrom, blockBasic?, List.nil_append, closed]
  | cons c cs ih =>
      obtain ⟨fuel, rfl⟩ := Nat.exists_eq_add_one_of_ne_zero (Nat.ne_zero_of_lt enough)
      have room := Nat.lt_of_succ_lt_succ enough
      rcases escapedFrom_cons true run c cs with ⟨-, raw, rfl, written⟩ | ⟨piece, spelled, written⟩
      · have front : ¬ ['"', '"', '"'] <+: escapedFrom true run ('"' :: cs) := fun three =>
          front_escapedFrom few (List.IsPrefix.trans
            (List.prefix_replicate_iff.mpr ⟨by simp, by simp⟩ : _ <+: List.replicate 3 '"') three)
        rcases closing?_of_front front next with ⟨quotes, closed⟩ | opened
        · rw [escapedFrom_of_quotes quotes] at closed ⊢
          simp only [blockBasic?, closed]
        · rw [written, List.cons_append] at opened ⊢
          simp [blockBasic?, opened, ih raw room, push, isPlain, isControl]
      · rw [written, List.append_assoc, blockBasic?_spelled spelled, ih (Nat.zero_le 2) room]
        rfl

def StringForm.Fits (cs : List Char) : StringForm → Prop
  | .basic => '\n' ∉ cs
  | .literal => ∀ c ∈ cs, isPlain c = true ∧ c ≠ '\''
  | .blockBasic => True
  | .blockLiteral => (∀ c ∈ cs, isPlain c = true ∨ c = '\n') ∧ longestRun '\'' cs ≤ 2

theorem isPlain_or_newline (h : needsEscape c = false) : isPlain c = true ∨ c = '\n' := by
  simp only [needsEscape, Bool.and_eq_false_iff, bne_eq_false_iff_eq] at h
  rcases h with (control | tab) | newline
  · exact .inl (by simp [isPlain, control])
  · exact .inl (by simp [isPlain, tab])
  · exact .inr newline

theorem fits_chooseForm (cs : List Char) : (chooseForm cs).Fits cs := by
  have plain (h : cs.any needsEscape = false) (c) (mem : c ∈ cs) : isPlain c = true ∨ c = '\n' :=
    isPlain_or_newline (by simpa using List.any_eq_false.mp h c mem)
  have oneLine (h : cs.contains '\n' = false) : '\n' ∉ cs := by simpa using h
  rw [chooseForm]
  split
  case isTrue basic => exact oneLine basic.2.2.2
  split
  case isTrue literal =>
    obtain ⟨noControl, noQuote, noBreak⟩ := literal
    refine fun c mem => ⟨(plain noControl c mem).resolve_right ?_, ?_⟩
    · rintro rfl
      exact oneLine noBreak mem
    · rintro rfl
      exact Nat.ne_of_gt (longestRun_pos mem) noQuote
  split
  case isTrue => exact True.intro
  split
  case isTrue literal => exact ⟨plain literal.1, literal.2⟩
  split
  case isTrue => exact True.intro
  case isFalse noBreak => exact oneLine (Bool.eq_false_iff.mpr noBreak)

theorem afterNewline?_cons (noBreak : c ≠ '\n') (noReturn : c ≠ '\r') (cs : List Char) :
    afterNewline? (c :: cs) = none := by
  simp [afterNewline?, noBreak, noReturn]

theorem openBlock_openingLine {body : List Char} (h : '\n' ∉ cs → afterNewline? body = none) :
    openBlock (openingLine cs ++ body) = body := by
  by_cases broken : '\n' ∈ cs
  · simp [openBlock, openingLine, broken, afterNewline?]
  · simp [openBlock, openingLine, broken, h broken]

theorem afterNewline?_escapedFrom (oneLine : '\n' ∉ cs) :
    afterNewline? (escapedFrom true run cs ++ '"' :: rest) = none := by
  cases cs with
  | nil => rfl
  | cons c cs =>
      obtain ⟨other, -⟩ := not_or.mp (mt List.mem_cons.mpr oneLine)
      rcases escapedFrom_cons true run c cs with ⟨-, -, -, written⟩ | ⟨piece, spelled, written⟩
      · rw [written]
        rfl
      · rw [written]
        cases spelled with
        | plain legal noQuote noEscape =>
            exact afterNewline?_cons (Ne.symm other) (ne_return (.inl legal)) _
        | newline => exact absurd rfl other
        | escape solid reads => rfl

theorem afterNewline?_literal (legal : ∀ c ∈ cs, isPlain c = true ∨ c = '\n')
    (oneLine : '\n' ∉ cs) : afterNewline? (cs ++ '\'' :: rest) = none := by
  cases cs with
  | nil => rfl
  | cons c cs =>
      obtain ⟨other, -⟩ := not_or.mp (mt List.mem_cons.mpr oneLine)
      exact afterNewline?_cons (Ne.symm other) (ne_return (legal c List.mem_cons_self)) _

theorem front_oneLine (first : cs.head? ≠ some q) (next : rest.head? ≠ some q) :
    ¬ [q, q] <+: cs ++ q :: rest := by
  cases cs with
  | nil =>
      rintro ⟨later, front⟩
      obtain ⟨-, same⟩ := List.cons.inj front
      exact next (by rw [← same]; rfl)
  | cons c cs =>
      rintro ⟨later, front⟩
      obtain ⟨same, -⟩ := List.cons.inj front
      exact first (congrArg some same.symm)

theorem string?_basic (h : ¬ ['"', '"'] <+: cs) : string? ('"' :: cs) = basicString? cs := by
  rw [string?]
  rintro later rfl
  exact h ⟨later, rfl⟩

theorem string?_literal (h : ¬ ['\'', '\''] <+: cs) : string? ('\'' :: cs) = literal? cs := by
  rw [string?]
  rintro later rfl
  exact h ⟨later, rfl⟩

theorem string?_writtenString (noDouble : rest.head? ≠ some '"')
    (noSingle : rest.head? ≠ some '\'') :
    string? (writtenString cs ++ rest) = some (cs, rest) := by
  have fits := fits_chooseForm cs
  rw [writtenString]
  cases form : chooseForm cs with
  | basic =>
      rw [form] at fits
      have first : (escapedFrom false 0 cs).head? ≠ some '"' := by
        cases cs with
        | nil => simp [escapedFrom]
        | cons c cs =>
            rcases escapedFrom_cons false 0 c cs with ⟨block, -⟩ | ⟨piece, spelled, written⟩
            · exact absurd block Bool.false_ne_true
            · exact written ▸ spelled.head?_ne_quote _
      have enough := length_le_escapedFrom false 0 cs
      simp only [List.cons_append, List.append_assoc, List.nil_append]
      rw [string?_basic (front_oneLine first noDouble), basicString?, basic?_escapedFrom fits]
      simp only [List.length_append]
      omega
  | literal =>
      rw [form] at fits
      have first : cs.head? ≠ some '\'' := fun quote =>
        (fits _ (List.mem_of_mem_head? quote)).2 rfl
      simp only [List.cons_append, List.append_assoc, List.nil_append]
      rw [string?_literal (front_oneLine first noSingle), literal?_append fits]
  | blockBasic =>
      have enough := length_le_escapedFrom true 0 cs
      simp only [List.cons_append, List.append_assoc, List.nil_append]
      rw [string?, blockBasicString?, openBlock_openingLine afterNewline?_escapedFrom,
        blockBasic?_escapedFrom (Nat.zero_le 2) noDouble]
      simp only [List.length_append]
      omega
  | blockLiteral =>
      rw [form] at fits
      simp only [List.cons_append, List.append_assoc, List.nil_append]
      rw [string?, blockLiteralString?, openBlock_openingLine (afterNewline?_literal fits.1),
        blockLiteral?_append fits.1 fits.2 noSingle]
      simp only [List.length_append]
      omega

end TrustRoles.Toml
