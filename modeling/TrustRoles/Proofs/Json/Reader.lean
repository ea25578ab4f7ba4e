import TrustRoles.Proofs.Json.Grammar
import TrustRoles.Text.Ascii

namespace TrustRoles.Json

def dropBlanks (cs : List Char) : List Char :=
  cs.dropWhile isBlank

def escape? : List Char → Option (Char × List Char)
  | [] => none
  | mark :: cs =>
      if mark = 'u' then do
        let n ← codeUnit? (cs.take 4)
        if n.isValidChar then some (Char.ofNat n, cs.drop 4)
        else do
          let cs ← Text.after? ['\\', 'u'] (cs.drop 4)
          let m ← codeUnit? (cs.take 4)
          if isHigh n && isLow m then some (Char.ofNat (joined n m), cs.drop 4) else none
      else (shortEscapes.lookup mark).map fun c => (c, cs)

def char? : List Char → Option (Char × List Char)
  | [] => none
  | c :: cs =>
      if c = '\\' then escape? cs
      else if 32 ≤ c.toNat ∧ c ≠ '"' then some (c, cs) else none

def chars? : Nat → List Char → Option (List Char × List Char)
  | 0, _ => none
  | fuel + 1, cs =>
      if cs.head? = some '"' then some ([], cs.tail)
      else do
        let (c, rest) ← char? cs
        let (more, rest) ← chars? fuel rest
        some (c :: more, rest)

def string? (cs : List Char) : Option (String × List Char) :=
  (chars? (cs.length + 1) cs).map fun r => (String.ofList r.1, r.2)

def name? (cs : List Char) : Option (String × List Char) := do
  let rest ← Text.after? ['"'] (dropBlanks cs)
  let (k, rest) ← string? rest
  let rest ← Text.after? [':'] (dropBlanks rest)
  some (k, dropBlanks rest)

def number? (cs : List Char) : Option (Json × List Char) :=
  let digits := cs.takeWhile Char.isDigit
  if digits.head? = some '0' ∧ digits ≠ ['0'] then none
  else some (number (Nat.ofDigitChars 10 digits 0), cs.dropWhile Char.isDigit)

def word? (cs : List Char) : Option (Json × List Char) :=
  [("null".toList, null), ("true".toList, boolean true), ("false".toList, boolean false)].findSome?
    fun w => (Text.after? w.1 cs).map fun rest => (w.2, rest)

def bracketed? {α : Type} (close : Char) (empty : α) (inner : Option (α × List Char))
    (cs : List Char) : Option (α × List Char) :=
  if (dropBlanks cs).head? = some close then some (empty, (dropBlanks cs).tail) else inner

mutual

def value? : Nat → List Char → Option (Json × List Char)
  | 0, _ => none
  | _ + 1, [] => none
  | fuel + 1, c :: cs =>
      if c.isDigit then number? (c :: cs)
      else if c = '"' then (string? cs).map fun r => (text r.1, r.2)
      else if c = '[' then
        (bracketed? ']' [] (elements? fuel cs) cs).map fun r => (list r.1, r.2)
      else if c = '\x7b' then
        (bracketed? '\x7d' [] (members? fuel cs) cs).map fun r => (record r.1, r.2)
      else word? (c :: cs)

def elements? : Nat → List Char → Option (List Json × List Char)
  | 0, _ => none
  | fuel + 1, cs => do
      let (v, rest) ← value? fuel (dropBlanks cs)
      match dropBlanks rest with
      | ',' :: rest => (elements? fuel rest).map fun r => (v :: r.1, r.2)
      | ']' :: rest => some ([v], rest)
      | _ => none

def members? : Nat → List Char → Option (List (String × Json) × List Char)
  | 0, _ => none
  | fuel + 1, cs => do
      let (k, rest) ← name? cs
      let (v, rest) ← value? fuel rest
      match dropBlanks rest with
      | ',' :: rest => (members? fuel rest).map fun r => ((k, v) :: r.1, r.2)
      | '\x7d' :: rest => some ([(k, v)], rest)
      | _ => none

end

def ofText? (s : String) : Option Json := do
  let (v, rest) ← value? (2 * s.toList.length + 1) (dropBlanks s.toList)
  if dropBlanks rest = [] then some v else none

variable {c : Char} {cs piece rest ws digits : List Char} {n fuel : Nat} {p : Phrase} {v : Json}

theorem dropBlanks_append (blank : Blank ws) (cs : List Char) :
    dropBlanks (ws ++ cs) = dropBlanks cs := by
  rw [dropBlanks, List.dropWhile_append_of_pos blank, dropBlanks]

theorem dropBlanks_cons (solid : isBlank c = false) : dropBlanks (c :: cs) = c :: cs := by
  simp [dropBlanks, solid]

theorem length_of_codeUnit? (h : codeUnit? digits = some n) : digits.length = 4 := by
  rw [codeUnit?] at h
  split at h
  case isTrue four => exact four
  case isFalse => cases h

theorem escape?_unit (reads : codeUnit? digits = some c.toNat) (rest : List Char) :
    escape? ('u' :: (digits ++ rest)) = some (c, rest) := by
  have four := length_of_codeUnit? reads
  have valid : c.toNat.isValidChar := c.valid
  simp [escape?, List.take_left' four, List.drop_left' four, reads, valid]

theorem escape?_pair {more : List Char} {high low : Nat} (first : codeUnit? digits = some high)
    (second : codeUnit? more = some low) (isHigh : isHigh high = true) (isLow : isLow low = true)
    (joins : joined high low = c.toNat) (rest : List Char) :
    escape? ('u' :: (digits ++ '\\' :: 'u' :: (more ++ rest))) = some (c, rest) := by
  have four := length_of_codeUnit? first
  have four' := length_of_codeUnit? second
  have half : ¬ high.isValidChar := by
    simp only [Json.isHigh, Bool.and_eq_true, decide_eq_true_eq] at isHigh
    simp only [Nat.isValidChar]
    omega
  have reached : Text.after? ['\\', 'u'] ('\\' :: 'u' :: (more ++ rest)) = some (more ++ rest) :=
    Text.after?_append _ _
  simp [escape?, List.take_left' four, List.drop_left' four, List.take_left' four',
    List.drop_left' four', first, second, half, reached, isHigh, isLow, joins]

theorem escape?_short {mark : Char} (known : (mark, c) ∈ shortEscapes) (rest : List Char) :
    escape? (mark :: rest) = some (c, rest) := by
  simp only [shortEscapes, List.mem_cons, Prod.mk.injEq, List.not_mem_nil, or_false] at known
  rcases known with ⟨rfl, rfl⟩ | ⟨rfl, rfl⟩ | ⟨rfl, rfl⟩ | ⟨rfl, rfl⟩ | ⟨rfl, rfl⟩ | ⟨rfl, rfl⟩ |
    ⟨rfl, rfl⟩ | ⟨rfl, rfl⟩ <;> rfl

theorem char?_spelled (spelled : Spelled c piece) (rest : List Char) :
    char? (piece ++ rest) = some (c, rest) := by
  cases spelled with
  | plain visible noQuote noEscape => simp [char?, visible, noQuote, noEscape]
  | short known => exact escape?_short known rest
  | unit reads => exact escape?_unit reads rest
  | pair first second high low joins =>
      rw [List.append_assoc]
      exact escape?_pair first second high low joins rest

theorem Spelled.head?_ne_quote (spelled : Spelled c piece) (rest : List Char) :
    (piece ++ rest).head? ≠ some '"' := by
  cases spelled with
  | plain visible noQuote noEscape => simpa using noQuote
  | short known => simp
  | unit reads => simp
  | pair first second high low joins => simp

theorem Spelled.length_pos (spelled : Spelled c piece) : 0 < piece.length := by
  cases spelled <;> exact Nat.succ_pos _

theorem chars?_spelling {written : List Char} (spelling : Spelling cs written)
    (enough : written.length < fuel) (rest : List Char) :
    chars? fuel (written ++ '"' :: rest) = some (cs, rest) := by
  induction spelling generalizing fuel with
  | nil =>
      obtain ⟨fuel, rfl⟩ := Nat.exists_eq_add_one_of_ne_zero (Nat.ne_zero_of_lt enough)
      rfl
  | cons first later ih =>
      obtain ⟨fuel, rfl⟩ := Nat.exists_eq_add_one_of_ne_zero (Nat.ne_zero_of_lt enough)
      have positive := first.length_pos
      rw [List.length_append] at enough
      rw [List.append_assoc, chars?, if_neg (first.head?_ne_quote _), char?_spelled first]
      simp [ih (show _ < fuel by omega)]

theorem string?_spelling {s : String} {written : List Char} (spelling : Spelling s.toList written)
    (rest : List Char) : string? (written ++ '"' :: rest) = some (s, rest) := by
  have enough : written.length < (written ++ '"' :: rest).length + 1 := by
    rw [List.length_append]
    omega
  rw [string?, chars?_spelling spelling enough, Option.map_some, String.ofList_toList]

def EndsNumber (rest : List Char) : Prop :=
  ∀ c, rest.head? = some c → c.isDigit = false

theorem number?_numeral (numeral : Numeral n digits) (ends : EndsNumber rest) :
    number? (digits ++ rest) = some (number n, rest) := by
  have taken : (digits ++ rest).takeWhile Char.isDigit = digits := by
    rw [List.takeWhile_append_of_pos numeral.decimal]
    cases rest with
    | nil => simp
    | cons c rest => simp [ends c rfl]
  have left : (digits ++ rest).dropWhile Char.isDigit = rest := by
    rw [List.dropWhile_append_of_pos numeral.decimal]
    cases rest with
    | nil => rfl
    | cons c rest => simp [ends c rfl]
  have plain : ¬ (digits.head? = some '0' ∧ digits ≠ ['0']) := fun ⟨zero, other⟩ =>
    other (numeral.plain zero)
  simp only [number?, taken, left, if_neg plain, numeral.value]

def Opens (c : Char) : Prop :=
  isBlank c = false ∧ c ≠ ']' ∧ c ≠ '\x7d'

instance (c : Char) : Decidable (Opens c) :=
  inferInstanceAs (Decidable (_ ∧ _))

theorem opens_of_isDigit (digit : c.isDigit = true) : Opens c := by
  have other {d : Char} (h : d.isDigit = false) : c ≠ d := by
    rintro rfl
    exact Bool.false_ne_true (h.symm.trans digit)
  refine ⟨?_, other (by decide), other (by decide)⟩
  simp [isBlank, other (d := ' ') (by decide), other (d := '\n') (by decide),
    other (d := '\r') (by decide), other (d := '\t') (by decide)]

theorem Spells.opens_value (h : Spells (.value v) cs) : ∃ c more, Opens c ∧ cs = c :: more := by
  cases h with
  | null => exact ⟨'n', _, by decide, rfl⟩
  | yes => exact ⟨'t', _, by decide, rfl⟩
  | no => exact ⟨'f', _, by decide, rfl⟩
  | number numeral =>
      obtain ⟨d, digits, rfl⟩ := List.exists_cons_of_ne_nil numeral.nonempty
      exact ⟨d, digits, opens_of_isDigit (numeral.decimal d List.mem_cons_self), rfl⟩
  | text spelling => exact ⟨'"', _, by decide, rfl⟩
  | emptyList blank => exact ⟨'[', _, by decide, rfl⟩
  | list items => exact ⟨'[', _, by decide, rfl⟩
  | emptyRecord blank => exact ⟨'\x7b', _, by decide, rfl⟩
  | record fields => exact ⟨'\x7b', _, by decide, rfl⟩

def Begins (cs : List Char) : Prop :=
  ∃ c more, Opens c ∧ ∀ rest, dropBlanks (cs ++ rest) = c :: (more ++ rest)

theorem Begins.append (h : Begins cs) (more : List Char) : Begins (cs ++ more) := by
  obtain ⟨c, begun, opens, begins⟩ := h
  refine ⟨c, begun ++ more, opens, fun rest => ?_⟩
  rw [List.append_assoc, begins, List.append_assoc]

theorem begins_of_blank (blank : Blank ws) (opens : Opens c) (more : List Char) :
    Begins (ws ++ c :: more) := by
  refine ⟨c, more, opens, fun rest => ?_⟩
  rw [List.append_assoc, dropBlanks_append blank, List.cons_append, dropBlanks_cons opens.1]

theorem Spells.begins_element (h : Spells (.element v) cs) : Begins cs := by
  cases h with
  | element before inner after =>
      obtain ⟨c, more, opens, rfl⟩ := inner.opens_value
      exact (begins_of_blank before opens more).append _

theorem Spells.begins_elements {vs : List Json} (h : Spells (.elements vs) cs) : Begins cs := by
  cases h with
  | lastElement item => exact item.begins_element
  | elements item items => exact item.begins_element.append _

theorem Spells.begins_members {fs : List (String × Json)} (h : Spells (.members fs) cs) :
    Begins cs := by
  have quote : Opens '"' := by decide
  cases h with
  | lastMember before name after item =>
      exact ((begins_of_blank before quote _).append _).append _
  | members before name after item fields =>
      exact (((begins_of_blank before quote _).append _).append _).append _

def Ends (rest : List Char) : Prop :=
  ∀ c, rest.head? = some c → isBlank c = false ∧ c.isDigit = false

theorem ends_cons (solid : isBlank c = false) (other : c.isDigit = false) (rest : List Char) :
    Ends (c :: rest) := by
  intro d head
  obtain rfl := Option.some.inj head
  exact ⟨solid, other⟩

theorem Ends.dropBlanks (h : Ends rest) : dropBlanks rest = rest := by
  cases rest with
  | nil => rfl
  | cons c rest => exact dropBlanks_cons (h c rfl).1

theorem isDigit_of_isBlank (blank : isBlank c = true) : c.isDigit = false := by
  simp only [isBlank, Bool.or_eq_true, decide_eq_true_eq] at blank
  rcases blank with ((rfl | rfl) | rfl) | rfl <;> rfl

theorem Ends.endsNumber (h : Ends rest) (blank : Blank ws) : EndsNumber (ws ++ rest) := by
  intro c head
  cases ws with
  | nil => exact (h c head).2
  | cons d ws =>
      obtain rfl := Option.some.inj head
      exact isDigit_of_isBlank (blank d List.mem_cons_self)

def Reads : Phrase → List Char → Prop
  | .value v, cs => ∀ fuel rest, 2 * cs.length < fuel → EndsNumber rest →
      value? fuel (cs ++ rest) = some (v, rest)
  | .element v, cs => ∀ fuel rest, 2 * cs.length < fuel → Ends rest →
      ∃ after, value? fuel (dropBlanks (cs ++ rest)) = some (v, after) ∧ dropBlanks after = rest
  | .elements vs, cs => ∀ fuel rest, 2 * cs.length + 1 < fuel →
      elements? fuel (cs ++ ']' :: rest) = some (vs, rest)
  | .members fs, cs => ∀ fuel rest, 2 * cs.length + 1 < fuel →
      members? fuel (cs ++ '\x7d' :: rest) = some (fs, rest)

section

variable {vs : List Json} {fs : List (String × Json)} {k s : String} {written key ws' : List Char}

theorem reads_word {word : List Char} (found : ∀ fuel rest,
    value? (fuel + 1) (word ++ rest) = some (v, rest)) : Reads (.value v) word := by
  intro fuel rest enough _
  obtain ⟨fuel, rfl⟩ := Nat.exists_eq_add_one_of_ne_zero (Nat.ne_zero_of_lt enough)
  exact found fuel rest

theorem reads_number (numeral : Numeral n digits) : Reads (.value (number n)) digits := by
  intro fuel rest enough ends
  obtain ⟨fuel, rfl⟩ := Nat.exists_eq_add_one_of_ne_zero (Nat.ne_zero_of_lt enough)
  have read := number?_numeral numeral ends
  obtain ⟨d, digits, rfl⟩ := List.exists_cons_of_ne_nil numeral.nonempty
  rw [List.cons_append] at read ⊢
  rw [value?, if_pos (numeral.decimal d List.mem_cons_self), read]

theorem enclosed (a b : Char) (cs rest : List Char) :
    a :: cs ++ [b] ++ rest = a :: (cs ++ b :: rest) := by
  rw [List.append_assoc, List.cons_append, List.singleton_append]

theorem reads_text (spelling : Spelling s.toList written) :
    Reads (.value (text s)) ('"' :: written ++ ['"']) := by
  refine reads_word fun fuel rest => ?_
  have opened (cs : List Char) : value? (fuel + 1) ('"' :: cs) =
      (string? cs).map fun r => (text r.1, r.2) := rfl
  rw [enclosed, opened, string?_spelling spelling]
  rfl

theorem value?_bracket (fuel : Nat) (cs : List Char) : value? (fuel + 1) ('[' :: cs) =
    (bracketed? ']' [] (elements? fuel cs) cs).map fun r => (list r.1, r.2) :=
  rfl

theorem value?_brace (fuel : Nat) (cs : List Char) : value? (fuel + 1) ('\x7b' :: cs) =
    (bracketed? '\x7d' [] (members? fuel cs) cs).map fun r => (record r.1, r.2) :=
  rfl

section

variable {α : Type} {close : Char} {inner : Option (α × List Char)}

theorem bracketed?_blank (blank : Blank ws) (solid : isBlank close = false) (empty : α) :
    bracketed? close empty inner (ws ++ close :: rest) = some (empty, rest) := by
  have reached : dropBlanks (ws ++ close :: rest) = close :: rest := by
    rw [dropBlanks_append blank, dropBlanks_cons solid]
  rw [bracketed?, reached]
  exact if_pos rfl

theorem bracketed?_begins (begins : Begins cs) (apart : ∀ c, Opens c → c ≠ close) (empty : α) :
    bracketed? close empty inner (cs ++ rest) = inner := by
  obtain ⟨c, more, opens, begun⟩ := begins
  rw [bracketed?, begun]
  exact if_neg fun same => apart c opens (Option.some.inj same)

end

theorem reads_emptyList (blank : Blank ws) : Reads (.value (list [])) ('[' :: ws ++ [']']) := by
  refine reads_word fun fuel rest => ?_
  rw [enclosed, value?_bracket, bracketed?_blank blank (by decide)]
  rfl

theorem reads_emptyRecord (blank : Blank ws) :
    Reads (.value (record [])) ('\x7b' :: ws ++ ['\x7d']) := by
  refine reads_word fun fuel rest => ?_
  rw [enclosed, value?_brace, bracketed?_blank blank (by decide)]
  rfl

theorem reads_list (begins : Begins cs) (h : Reads (.elements vs) cs) :
    Reads (.value (list vs)) ('[' :: cs ++ [']']) := by
  intro fuel rest enough _
  obtain ⟨fuel, rfl⟩ := Nat.exists_eq_add_one_of_ne_zero (Nat.ne_zero_of_lt enough)
  rw [List.length_append, List.length_cons, List.length_singleton] at enough
  rw [enclosed, value?_bracket, bracketed?_begins begins fun c opens => opens.2.1,
    h fuel rest (by omega)]
  rfl

theorem reads_record (begins : Begins cs) (h : Reads (.members fs) cs) :
    Reads (.value (record fs)) ('\x7b' :: cs ++ ['\x7d']) := by
  intro fuel rest enough _
  obtain ⟨fuel, rfl⟩ := Nat.exists_eq_add_one_of_ne_zero (Nat.ne_zero_of_lt enough)
  rw [List.length_append, List.length_cons, List.length_singleton] at enough
  rw [enclosed, value?_brace, bracketed?_begins begins fun c opens => opens.2.2,
    h fuel rest (by omega)]
  rfl

theorem reads_element (before : Blank ws) (inner : Spells (.value v) cs) (after : Blank ws')
    (h : Reads (.value v) cs) : Reads (.element v) (ws ++ cs ++ ws') := by
  intro fuel rest enough ends
  obtain ⟨c, more, opens, starts⟩ := inner.opens_value
  have reached : dropBlanks (ws ++ cs ++ ws' ++ rest) = cs ++ (ws' ++ rest) := by
    rw [List.append_assoc, List.append_assoc, dropBlanks_append before, starts, List.cons_append,
      dropBlanks_cons opens.1]
  rw [List.length_append, List.length_append] at enough
  refine ⟨ws' ++ rest, ?_, (dropBlanks_append after rest).trans ends.dropBlanks⟩
  rw [reached]
  exact h fuel (ws' ++ rest) (by omega) (ends.endsNumber after)

theorem reads_lastElement (h : Reads (.element v) cs) : Reads (.elements [v]) cs := by
  intro fuel rest enough
  obtain ⟨fuel, rfl⟩ := Nat.exists_eq_add_one_of_ne_zero (Nat.ne_zero_of_lt enough)
  obtain ⟨after, read, closed⟩ :=
    h fuel (']' :: rest) (by omega) (ends_cons (by decide) (by decide) rest)
  simp [elements?, read, closed]

theorem reads_elements (h : Reads (.element v) cs) (h' : Reads (.elements vs) written) :
    Reads (.elements (v :: vs)) (cs ++ ',' :: written) := by
  intro fuel rest enough
  obtain ⟨fuel, rfl⟩ := Nat.exists_eq_add_one_of_ne_zero (Nat.ne_zero_of_lt enough)
  rw [List.length_append, List.length_cons] at enough
  obtain ⟨after, read, goesOn⟩ := h fuel (',' :: (written ++ ']' :: rest)) (by omega)
    (ends_cons (by decide) (by decide) _)
  rw [List.append_assoc, List.cons_append]
  simp [elements?, read, goesOn, h' fuel rest (by omega)]

theorem name?_spelling (before : Blank ws) (name : Spelling k.toList key) (after : Blank ws')
    (cs : List Char) :
    name? (ws ++ '"' :: (key ++ '"' :: (ws' ++ ':' :: cs))) = some (k, dropBlanks cs) := by
  have quote : dropBlanks (ws ++ '"' :: (key ++ '"' :: (ws' ++ ':' :: cs))) =
      '"' :: (key ++ '"' :: (ws' ++ ':' :: cs)) := by
    rw [dropBlanks_append before, dropBlanks_cons (by decide)]
  have colon : dropBlanks (ws' ++ ':' :: cs) = ':' :: cs := by
    rw [dropBlanks_append after, dropBlanks_cons (by decide)]
  have opened (cs : List Char) : Text.after? ['"'] ('"' :: cs) = some cs :=
    Text.after?_append _ cs
  have divided (cs : List Char) : Text.after? [':'] (':' :: cs) = some cs :=
    Text.after?_append _ cs
  simp [name?, quote, opened, string?_spelling name, colon, divided]

theorem reads_lastMember (before : Blank ws) (name : Spelling k.toList key) (after : Blank ws')
    (h : Reads (.element v) cs) :
    Reads (.members [(k, v)]) (ws ++ '"' :: key ++ '"' :: ws' ++ ':' :: cs) := by
  intro fuel rest enough
  obtain ⟨fuel, rfl⟩ := Nat.exists_eq_add_one_of_ne_zero (Nat.ne_zero_of_lt enough)
  simp only [List.length_append, List.length_cons] at enough
  obtain ⟨end', read, closed⟩ :=
    h fuel ('\x7d' :: rest) (by omega) (ends_cons (by decide) (by decide) rest)
  rw [List.append_assoc, List.cons_append]
  simp [members?, name?_spelling before name after, read, closed]

theorem reads_members (before : Blank ws) (name : Spelling k.toList key) (after : Blank ws')
    (h : Reads (.element v) cs) (h' : Reads (.members fs) written) :
    Reads (.members ((k, v) :: fs))
      (ws ++ '"' :: key ++ '"' :: ws' ++ ':' :: cs ++ ',' :: written) := by
  intro fuel rest enough
  obtain ⟨fuel, rfl⟩ := Nat.exists_eq_add_one_of_ne_zero (Nat.ne_zero_of_lt enough)
  simp only [List.length_append, List.length_cons] at enough
  obtain ⟨end', read, goesOn⟩ := h fuel (',' :: (written ++ '\x7d' :: rest)) (by omega)
    (ends_cons (by decide) (by decide) _)
  rw [List.append_assoc, List.append_assoc, List.cons_append, List.cons_append]
  simp [members?, name?_spelling before name after, read, goesOn, h' fuel rest (by omega)]

end

theorem reads (h : Spells p cs) : Reads p cs := by
  induction h with
  | null => exact reads_word fun _ _ => rfl
  | yes => exact reads_word fun _ _ => rfl
  | no => exact reads_word fun _ _ => rfl
  | number numeral => exact reads_number numeral
  | text spelling => exact reads_text spelling
  | emptyList blank => exact reads_emptyList blank
  | list items ih => exact reads_list items.begins_elements ih
  | emptyRecord blank => exact reads_emptyRecord blank
  | record fields ih => exact reads_record fields.begins_members ih
  | element before inner after ih => exact reads_element before inner after ih
  | lastElement item ih => exact reads_lastElement ih
  | elements item items ihItem ihItems => exact reads_elements ihItem ihItems
  | lastMember before name after item ih => exact reads_lastMember before name after ih
  | members before name after item fields ihItem ihFields =>
      exact reads_members before name after ihItem ihFields

theorem ofText?_of_isText {s : String} (h : IsText s v) : ofText? s = some v := by
  have nothing : Ends [] := fun c head => by cases head
  obtain ⟨after, read, closed⟩ :=
    reads h (2 * s.toList.length + 1) [] (Nat.lt_succ_self _) nothing
  rw [List.append_nil] at read
  simp [ofText?, read, closed]

theorem IsText.unique {s : String} {w : Json} (h : IsText s v) (h' : IsText s w) : v = w :=
  Option.some.inj ((ofText?_of_isText h).symm.trans (ofText?_of_isText h'))

theorem ofText?_pretty (v : Json) : ofText? v.pretty = some v :=
  ofText?_of_isText (isText_pretty v)

end TrustRoles.Json
