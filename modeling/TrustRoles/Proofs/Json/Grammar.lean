import TrustRoles.Json

namespace TrustRoles.Json

variable {c : Char} {v : Json} {vs : List Json} {k : String} {fs : List (String × Json)}

def isBlank (c : Char) : Bool :=
  c = ' ' || c = '\n' || c = '\r' || c = '\t'

def Blank (ws : List Char) : Prop :=
  ∀ c ∈ ws, isBlank c = true

def shortEscapes : List (Char × Char) :=
  [('"', '"'), ('\\', '\\'), ('/', '/'), ('b', '\x08'), ('f', '\x0c'), ('n', '\n'), ('r', '\r'),
    ('t', '\t')]

def codeUnit? (digits : List Char) : Option Nat :=
  if digits.length = 4 then
    (digits.mapM Text.hexValue?).map fun values => values.foldl (fun n d => 16 * n + d) 0
  else none

def isHigh (n : Nat) : Bool := 0xd800 ≤ n && n < 0xdc00

def isLow (n : Nat) : Bool := 0xdc00 ≤ n && n < 0xe000

def joined (high low : Nat) : Nat := 0x10000 + 0x400 * (high - 0xd800) + (low - 0xdc00)

inductive Spelled : Char → List Char → Prop
  | plain {c : Char} (visible : 32 ≤ c.toNat) (noQuote : c ≠ '"') (noEscape : c ≠ '\\') :
      Spelled c [c]
  | short {c mark : Char} (known : (mark, c) ∈ shortEscapes) : Spelled c ['\\', mark]
  | unit {c : Char} {digits : List Char} (reads : codeUnit? digits = some c.toNat) :
      Spelled c ('\\' :: 'u' :: digits)
  | pair {c : Char} {digits more : List Char} {high low : Nat}
      (first : codeUnit? digits = some high) (second : codeUnit? more = some low)
      (isHigh : isHigh high = true) (isLow : isLow low = true) (joins : joined high low = c.toNat) :
      Spelled c ('\\' :: 'u' :: digits ++ '\\' :: 'u' :: more)

inductive Spelling : List Char → List Char → Prop
  | nil : Spelling [] []
  | cons {c : Char} {piece cs text : List Char} (first : Spelled c piece)
      (rest : Spelling cs text) : Spelling (c :: cs) (piece ++ text)

structure Numeral (n : Nat) (digits : List Char) : Prop where
  nonempty : digits ≠ []
  decimal : ∀ d ∈ digits, d.isDigit = true
  plain : digits.head? = some '0' → digits = ['0']
  value : Nat.ofDigitChars 10 digits 0 = n

inductive Phrase where
  | value (v : Json)
  | element (v : Json)
  | elements (vs : List Json)
  | members (fs : List (String × Json))

inductive Spells : Phrase → List Char → Prop
  | null : Spells (.value null) "null".toList
  | yes : Spells (.value (boolean true)) "true".toList
  | no : Spells (.value (boolean false)) "false".toList
  | number {n : Nat} {digits : List Char} (numeral : Numeral n digits) :
      Spells (.value (number n)) digits
  | text {s : String} {cs : List Char} (spelling : Spelling s.toList cs) :
      Spells (.value (text s)) ('"' :: cs ++ ['"'])
  | emptyList {ws : List Char} (blank : Blank ws) :
      Spells (.value (list [])) ('[' :: ws ++ [']'])
  | list {vs : List Json} {cs : List Char} (items : Spells (.elements vs) cs) :
      Spells (.value (list vs)) ('[' :: cs ++ [']'])
  | emptyRecord {ws : List Char} (blank : Blank ws) :
      Spells (.value (record [])) ('\x7b' :: ws ++ ['\x7d'])
  | record {fs : List (String × Json)} {cs : List Char} (fields : Spells (.members fs) cs) :
      Spells (.value (record fs)) ('\x7b' :: cs ++ ['\x7d'])
  | element {v : Json} {ws cs ws' : List Char} (before : Blank ws) (inner : Spells (.value v) cs)
      (after : Blank ws') : Spells (.element v) (ws ++ cs ++ ws')
  | lastElement {v : Json} {cs : List Char} (item : Spells (.element v) cs) :
      Spells (.elements [v]) cs
  | elements {v : Json} {vs : List Json} {cs rest : List Char} (item : Spells (.element v) cs)
      (items : Spells (.elements vs) rest) : Spells (.elements (v :: vs)) (cs ++ ',' :: rest)
  | lastMember {k : String} {v : Json} {ws key ws' cs : List Char} (before : Blank ws)
      (name : Spelling k.toList key) (after : Blank ws') (item : Spells (.element v) cs) :
      Spells (.members [(k, v)]) (ws ++ '"' :: key ++ '"' :: ws' ++ ':' :: cs)
  | members {k : String} {v : Json} {fs : List (String × Json)} {ws key ws' cs rest : List Char}
      (before : Blank ws) (name : Spelling k.toList key) (after : Blank ws')
      (item : Spells (.element v) cs) (fields : Spells (.members fs) rest) :
      Spells (.members ((k, v) :: fs)) (ws ++ '"' :: key ++ '"' :: ws' ++ ':' :: cs ++ ',' :: rest)

def IsText (s : String) (v : Json) : Prop :=
  Spells (.element v) s.toList

theorem hexValue?_hexDigit : ∀ n < 16, Text.hexValue? (Text.hexDigit n) = some n := by
  decide

theorem codeUnit?_control (h : c.toNat < 32) :
    codeUnit? ['0', '0', Text.hexDigit (c.toNat / 16), Text.hexDigit (c.toNat % 16)] =
      some c.toNat := by
  have high := hexValue?_hexDigit (c.toNat / 16) (by omega)
  have low := hexValue?_hexDigit (c.toNat % 16) (by omega)
  have zero : Text.hexValue? '0' = some 0 := rfl
  have value : 16 * (c.toNat / 16) + c.toNat % 16 = c.toNat := Nat.div_add_mod _ _
  simp [codeUnit?, zero, high, low, value]

theorem spelled_escapedChar (c : Char) : Spelled c (escapedChar c) := by
  have letter {mark d : Char} (same : c = d) (known : (mark, d) ∈ shortEscapes) :
      Spelled c ['\\', mark] := .short (same ▸ known)
  unfold escapedChar
  split
  case isTrue quote => exact letter quote (by decide)
  rename_i noQuote
  split
  case isTrue backslash => exact letter backslash (by decide)
  rename_i noEscape
  split
  case isTrue backspace => exact letter backspace (by decide)
  split
  case isTrue feed => exact letter feed (by decide)
  split
  case isTrue newline => exact letter newline (by decide)
  split
  case isTrue carriage => exact letter carriage (by decide)
  split
  case isTrue tab => exact letter tab (by decide)
  split
  case isTrue control => exact .unit (codeUnit?_control control)
  case isFalse visible => exact .plain (Nat.not_lt.mp visible) noQuote noEscape

theorem spelling_escaped (cs : List Char) : Spelling cs (cs.flatMap escapedChar) := by
  induction cs with
  | nil => exact .nil
  | cons c cs ih => exact .cons (spelled_escapedChar c) ih

theorem head?_toDigits_ne_zero (n : Nat) (positive : 0 < n) :
    (Nat.toDigits 10 n).head? ≠ some '0' := by
  induction n using Nat.strongRecOn with
  | ind n ih =>
      rw [Nat.toDigits_eq_if (by decide)]
      split
      case isTrue small =>
        have digit : ∀ n < 10, 0 < n → n.digitChar ≠ '0' := by decide
        exact fun zero => digit n small positive (Option.some.inj zero)
      case isFalse large =>
        rw [List.head?_append, Option.or_of_isSome (by simp [Nat.toDigits_ne_nil])]
        exact ih (n / 10) (by omega) (by omega)

theorem numeral_toString (n : Nat) : Numeral n (toString n).toList := by
  rw [Nat.toString_eq_repr, Nat.toList_repr]
  have decimal {d : Char} (among : d ∈ Nat.toDigits 10 n) : d.isDigit = true :=
    Nat.isDigit_of_mem_toDigits (by decide) (by decide) among
  refine ⟨Nat.toDigits_ne_nil, fun d => decimal, fun zero => ?_, Nat.ofDigitChars_ten_toDigits⟩
  rcases Nat.eq_zero_or_pos n with rfl | positive
  · rfl
  · exact absurd zero (head?_toDigits_ne_zero n positive)

theorem blank_newline (depth : Nat) : Blank (newline depth) :=
  List.forall_mem_cons.mpr ⟨rfl, fun _ among => List.eq_of_mem_replicate among ▸ rfl⟩

theorem spells_layoutItems (depth : Nat) {ws : List Char} (blank : Blank ws)
    (each : ∀ w ∈ v :: vs, Spells (.value w) (layout depth w)) :
    Spells (.elements (v :: vs)) (newline depth ++ layout depth v ++ layoutItems depth vs ++ ws) := by
  induction vs generalizing v with
  | nil =>
      obtain ⟨here, -⟩ := List.forall_mem_cons.mp each
      rw [layoutItems, List.append_nil]
      exact .lastElement (.element (blank_newline depth) here blank)
  | cons w vs ih =>
      obtain ⟨here, later⟩ := List.forall_mem_cons.mp each
      have first := Spells.element (blank_newline depth) here (List.forall_mem_nil _)
      have both := Spells.elements first (ih later)
      rw [layoutItems]
      simpa using both

theorem spells_layoutFields (depth : Nat) {ws : List Char} (blank : Blank ws)
    (each : ∀ f ∈ (k, v) :: fs, Spells (.value f.2) (layout depth f.2)) :
    Spells (.members ((k, v) :: fs)) (newline depth ++ literal k ++ ": ".toList ++ layout depth v ++
      layoutFields depth fs ++ ws) := by
  have space : Blank [' '] := List.forall_mem_singleton.mpr rfl
  have name (k : String) := spelling_escaped k.toList
  induction fs generalizing k v with
  | nil =>
      obtain ⟨here, -⟩ := List.forall_mem_cons.mp each
      have item := Spells.lastMember (blank_newline depth) (name k) (List.forall_mem_nil _)
        (.element space here blank)
      rw [layoutFields]
      simpa [literal] using item
  | cons f fs ih =>
      obtain ⟨here, later⟩ := List.forall_mem_cons.mp each
      have both := Spells.members (blank_newline depth) (name k) (List.forall_mem_nil _)
        (.element space here (List.forall_mem_nil _)) (ih later)
      rw [layoutFields]
      simpa [literal] using both

theorem spells_layout (depth : Nat) : (v : Json) → Spells (.value v) (layout depth v)
  | null => .null
  | boolean true => .yes
  | boolean false => .no
  | number n => .number (numeral_toString n)
  | text s => .text (spelling_escaped s.toList)
  | list [] => .emptyList (List.forall_mem_nil _)
  | list (v :: vs) => by
      have each : ∀ w ∈ v :: vs, Spells (.value w) (layout (depth + 1) w) :=
        fun w among => spells_layout (depth + 1) w
      have items := spells_layoutItems (depth + 1) (blank_newline depth) each
      simpa [layout] using Spells.list items
  | record [] => .emptyRecord (List.forall_mem_nil _)
  | record ((k, v) :: fs) => by
      have each : ∀ f ∈ (k, v) :: fs, Spells (.value f.2) (layout (depth + 1) f.2) :=
        fun f among => spells_layout (depth + 1) f.2
      have fields := spells_layoutFields (depth + 1) (blank_newline depth) each
      simpa [layout] using Spells.record fields
termination_by v => sizeOf v
decreasing_by
  · have smaller := List.sizeOf_lt_of_mem among
    simp only [Json.list.sizeOf_spec]
    omega
  · have smaller := List.sizeOf_lt_of_mem among
    obtain ⟨name, value⟩ := f
    simp only [Json.record.sizeOf_spec, Prod.mk.sizeOf_spec] at smaller ⊢
    omega

theorem isText_pretty (v : Json) : IsText v.pretty v := by
  rw [IsText, pretty, String.toList_ofList]
  have whole := Spells.element (List.forall_mem_nil _) (spells_layout 0 v) (List.forall_mem_nil _)
  rwa [List.nil_append, List.append_nil] at whole

end TrustRoles.Json
