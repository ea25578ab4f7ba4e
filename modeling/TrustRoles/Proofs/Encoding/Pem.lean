import TrustRoles.Pem
import TrustRoles.Proofs.Encoding.Base64

namespace TrustRoles.Pem

open Text

def IsPlain (b : UInt8) : Prop :=
  b ≠ 0x0a ∧ b ≠ 0x0d ∧ b ≠ 0x2d

theorem isPlain_digit : ∀ n, n < 64 →
    Base64.digit n ≠ 0x0a ∧ Base64.digit n ≠ 0x0d ∧ Base64.digit n ≠ 0x2d := by
  decide

theorem isPlain_of_mem_encode {bs : List UInt8} {x : UInt8} (h : x ∈ Base64.encode bs) :
    IsPlain x := by
  rcases Base64.mem_encode h with ⟨n, small, rfl⟩ | rfl
  · exact isPlain_digit n small
  · exact ⟨by decide, by decide, by decide⟩

theorem beforeLineEnd?_concat {bs : List UInt8} {b : UInt8} (h : IsPlain b) :
    beforeLineEnd? (bs ++ [b]) = none := by
  unfold beforeLineEnd?
  rw [List.reverse_append]
  split
  · rename_i same
    exact absurd (List.cons.inj same).1 h.1
  · rename_i same
    exact absurd (List.cons.inj same).1 h.1
  · rename_i same
    exact absurd (List.cons.inj same).1 h.2.1
  · rfl

theorem beforeLineEnd?_lineFeed {bs : List UInt8} {b : UInt8} (h : IsPlain b) :
    beforeLineEnd? (bs ++ [b] ++ [0x0a]) = some (bs ++ [b]) := by
  unfold beforeLineEnd?
  rw [List.reverse_append, List.reverse_append]
  split
  · rename_i same
    exact absurd (List.cons.inj (List.cons.inj same).2).1 h.2.1
  · rename_i same
    rw [← (List.cons.inj same).2]
    simp
  · rename_i same
    cases (List.cons.inj same).1
  · rename_i other _
    exact (other _ rfl).elim

def Joins (lines text : List UInt8) : Prop :=
  ∀ k, lines.length < k → unwrapWithin k lines = some text

theorem joins_last {init : List UInt8} {last : UInt8} (plain : IsPlain last)
    (short : (init ++ [last]).length ≤ lineWidth) : Joins (init ++ [last]) (init ++ [last]) := by
  intro k hk
  obtain ⟨k, rfl⟩ := Nat.exists_eq_add_one_of_ne_zero (Nat.ne_zero_of_lt hk)
  rw [unwrapWithin, if_neg (Nat.not_lt.mpr short), beforeLineEnd?_concat plain]
  rfl

theorem joins_line {line rest text : List UInt8} (full : line.length = lineWidth)
    (joins : Joins rest text) : Joins (line ++ 0x0a :: rest) (line ++ text) := by
  intro k hk
  obtain ⟨k, rfl⟩ := Nat.exists_eq_add_one_of_ne_zero (Nat.ne_zero_of_lt hk)
  rw [List.length_append, List.length_cons] at hk
  have long : lineWidth < (line ++ 0x0a :: rest).length := by
    rw [List.length_append, List.length_cons]
    omega
  have ended : afterLineEnd? (0x0a :: rest) = some rest := rfl
  rw [unwrapWithin, if_pos long, List.drop_left' full, List.take_left' full, ended,
    Option.bind_eq_bind, Option.bind_some, joins k (by omega)]
  rfl

theorem exists_wrapWithin {fuel : Nat} {text : List UInt8} (enough : text.length ≤ fuel)
    (written : text ≠ []) (plain : ∀ x ∈ text, IsPlain x) :
    ∃ init last, wrapWithin fuel text = init ++ [last] ++ [0x0a] ∧ IsPlain last ∧
      (∀ x ∈ init, x ≠ 0x2d) ∧ Joins (init ++ [last]) text := by
  induction fuel generalizing text with
  | zero => exact absurd (List.length_eq_zero_iff.mp (Nat.le_zero.mp enough)) written
  | succ fuel ih =>
      have nonempty : text.isEmpty = false := by simpa using written
      rw [wrapWithin, nonempty, if_neg Bool.false_ne_true]
      by_cases short : text.length ≤ lineWidth
      · obtain ⟨init, last, rfl⟩ : ∃ init last, text = init ++ [last] := by
          simpa using text.eq_nil_or_concat.resolve_left written
        have lastPlain : IsPlain last := plain last (by simp)
        refine ⟨init, last, ?_, lastPlain, fun x hx => (plain x (by simp [hx])).2.2,
          joins_last lastPlain short⟩
        rw [List.take_of_length_le short, List.drop_of_length_le short]
        cases fuel <;> rfl
      · have long : lineWidth < text.length := Nat.lt_of_not_le short
        have shorter : (text.drop lineWidth).length ≤ fuel := by
          rw [List.length_drop]
          simp only [lineWidth] at long ⊢
          omega
        have more : text.drop lineWidth ≠ [] := fun none => short (List.drop_eq_nil_iff.mp none)
        obtain ⟨init, last, wrapped, lastPlain, undashed, joins⟩ :=
          ih shorter more fun x hx => plain x (List.mem_of_mem_drop hx)
        refine ⟨text.take lineWidth ++ 0x0a :: init, last, ?_, lastPlain, fun x hx => ?_, ?_⟩
        · rw [wrapped]
          simp
        · rcases List.mem_append.mp hx with inLine | later
          · exact (plain x (List.mem_of_mem_take inLine)).2.2
          · rcases List.mem_cons.mp later with rfl | later
            · decide
            · exact undashed x later
        · have joined := joins_line (List.length_take_of_le (Nat.le_of_lt long)) joins
          rw [List.take_append_drop] at joined
          rw [List.append_assoc, List.cons_append]
          exact joined

def block (bs : List UInt8) : List UInt8 :=
  opening ++ label ++ 0x0a :: wrap (Base64.encode bs) ++ closing

theorem encode_eq (bs : List UInt8) : encode bs = block bs ++ [0x0a] := rfl

theorem afterOpening?_opening (rest : List UInt8) :
    afterOpening? (opening ++ rest) = some rest := by
  rw [afterOpening?, after?_append]

theorem afterOpening?_lineFeed (rest : List UInt8) :
    afterOpening? (0x0a :: (opening ++ rest)) = some rest := by
  have unopened : after? opening (0x0a :: (opening ++ rest)) = none := rfl
  have marked : (0x0a : UInt8) = 0x0a ∧ (after? opening (opening ++ rest)).isSome = true := by
    rw [after?_append]
    exact ⟨rfl, rfl⟩
  rw [afterOpening?, unopened]
  dsimp only
  rw [skipText?, if_neg (by decide), if_pos marked, after?_append]

theorem decode?_of_afterOpening? {piece bs : List UInt8} (h : bs ≠ [])
    (opened : afterOpening? piece =
      some (label ++ 0x0a :: wrap (Base64.encode bs) ++ closing)) : decode? piece = some bs := by
  obtain ⟨init, last, wrapped, lastPlain, -, joins⟩ := exists_wrapWithin (Nat.le_refl _)
    (Base64.encode_ne_nil h) fun x => isPlain_of_mem_encode
  rw [wrap, wrapped, List.append_assoc, List.cons_append] at opened
  have text : text? piece = some (init ++ [last]) := by
    have ended : afterLineEnd? (0x0a :: (init ++ [last] ++ [0x0a] ++ closing)) =
        some (init ++ [last] ++ [0x0a] ++ closing) := rfl
    have split : (init ++ [last] ++ [0x0a] ++ closing).reverse =
        closing.reverse ++ (init ++ [last] ++ [0x0a]).reverse := List.reverse_append
    rw [text?, opened, Option.bind_eq_bind, Option.bind_some, after?_append, Option.bind_some,
      ended, Option.bind_some, split, after?_append, Option.bind_some, List.reverse_reverse,
      beforeLineEnd?_lineFeed lastPlain]
  have nonempty : (init ++ [last]).isEmpty = false := by simp
  rw [decode?, text, Option.bind_eq_bind, Option.bind_some, nonempty, if_neg Bool.false_ne_true,
    unwrap?, joins _ (Nat.lt_succ_self _), Option.bind_some, Base64.decode?_encode]

theorem cutAfter?_cons {bs : List UInt8} {x : UInt8} (h : after? closing (x :: bs) = none) :
    cutAfter? closing (x :: bs) = (cutAfter? closing bs).map fun r => (x :: r.1, r.2) := by
  rw [cutAfter?, h]

theorem cutAfter?_append {front : List UInt8} (h : ∀ x ∈ front, x ≠ 0x2d) (bs : List UInt8) :
    cutAfter? closing (front ++ bs) =
      (cutAfter? closing bs).map fun r => (front ++ r.1, r.2) := by
  induction front with
  | nil => exact Option.map_id'.symm
  | cons x front ih =>
      have unmarked : after? closing (x :: (front ++ bs)) = none :=
        if_neg (Ne.symm (h x (List.mem_cons_self ..)))
      rw [List.cons_append, cutAfter?_cons unmarked, ih fun y hy => h y (List.mem_cons_of_mem _ hy),
        Option.map_map]
      rfl

theorem cutAfter?_closing (bs : List UInt8) :
    cutAfter? closing (closing ++ bs) = some (closing, bs) := by
  have split : closing ++ bs = 0x2d :: (closing.tail ++ bs) := rfl
  have marked := after?_append closing bs
  rw [split] at marked ⊢
  rw [cutAfter?, marked]

def dashes : List UInt8 := ascii "-----"

theorem cutAfter?_dashes {x : UInt8} (h : x ≠ 0x45) (h' : x ≠ 0x2d) (bs : List UInt8) :
    cutAfter? closing (dashes ++ x :: bs) =
      (cutAfter? closing bs).map fun r => (dashes ++ x :: r.1, r.2) := by
  -- a closing mark has five dashes and an E: the fifth dash or the E is missing from each place
  have five : after? closing (0x2d :: 0x2d :: 0x2d :: 0x2d :: 0x2d :: x :: bs) = none :=
    if_neg (Ne.symm h)
  have four : after? closing (0x2d :: 0x2d :: 0x2d :: 0x2d :: x :: bs) = none :=
    if_neg (Ne.symm h')
  have three : after? closing (0x2d :: 0x2d :: 0x2d :: x :: bs) = none := if_neg (Ne.symm h')
  have two : after? closing (0x2d :: 0x2d :: x :: bs) = none := if_neg (Ne.symm h')
  have one : after? closing (0x2d :: x :: bs) = none := if_neg (Ne.symm h')
  have none : after? closing (x :: bs) = none := if_neg (Ne.symm h')
  change cutAfter? closing (0x2d :: 0x2d :: 0x2d :: 0x2d :: 0x2d :: x :: bs) = _
  rw [cutAfter?_cons five, cutAfter?_cons four, cutAfter?_cons three, cutAfter?_cons two,
    cutAfter?_cons one, cutAfter?_cons none]
  cases cutAfter? closing bs <;> rfl

theorem cutAfter?_block {bs : List UInt8} (h : bs ≠ []) (rest : List UInt8) :
    cutAfter? closing (block bs ++ rest) = some (block bs, rest) := by
  obtain ⟨init, last, wrapped, lastPlain, undashed, -⟩ := exists_wrapWithin (Nat.le_refl _)
    (Base64.encode_ne_nil h) fun x => isPlain_of_mem_encode
  have lines : ∀ x ∈ wrap (Base64.encode bs), x ≠ 0x2d := by
    intro x hx
    rw [wrap, wrapped, List.append_assoc] at hx
    rcases List.mem_append.mp hx with early | late
    · exact undashed x early
    · rcases List.mem_cons.mp late with rfl | late
      · exact lastPlain.2.2
      · rw [List.mem_singleton.mp late]
        decide
  have words : ∀ x ∈ ascii "EGIN CERTIFICATE", x ≠ 0x2d := by decide +kernel
  have whole : block bs ++ rest = dashes ++ 0x42 :: (ascii "EGIN CERTIFICATE" ++
      (dashes ++ 0x0a :: (wrap (Base64.encode bs) ++ (closing ++ rest)))) := by
    rw [block, List.append_assoc, List.append_assoc]
    rfl
  rw [whole, cutAfter?_dashes (by decide) (by decide), cutAfter?_append words,
    cutAfter?_dashes (by decide) (by decide), cutAfter?_append lines, cutAfter?_closing]
  rfl

theorem splitWithin_flatten {pieces : List (List UInt8)} {fuel : Nat}
    (cuts : ∀ p ∈ pieces, 1 < p.length ∧ ∀ rest, cutAfter? closing (p ++ rest) = some (p, rest))
    (enough : pieces.flatten.length ≤ fuel) : splitWithin fuel pieces.flatten = some pieces := by
  induction pieces generalizing fuel with
  | nil => cases fuel <;> rfl
  | cons p pieces ih =>
      obtain ⟨long, cut⟩ := cuts p (List.mem_cons_self ..)
      rw [List.flatten_cons] at enough ⊢
      rw [List.length_append] at enough
      obtain ⟨fuel, rfl⟩ : ∃ k, fuel = k + 1 := ⟨fuel - 1, by omega⟩
      have more : ¬(p ++ pieces.flatten).length ≤ 1 := by
        rw [List.length_append]
        omega
      rw [splitWithin, if_neg more, cut]
      dsimp only
      rw [ih (fun q hq => cuts q (List.mem_cons_of_mem _ hq)) (by omega)]
      rfl

def pieces (bs : List UInt8) (rest : List (List UInt8)) : List (List UInt8) :=
  block bs :: rest.map fun cs => 0x0a :: block cs

theorem flatMap_encode (bs : List UInt8) (rest : List (List UInt8)) :
    (bs :: rest).flatMap encode = (pieces bs rest).flatten ++ [0x0a] := by
  induction rest generalizing bs with
  | nil => simp [pieces, encode_eq]
  | cons cs rest ih =>
      rw [List.flatMap_cons, ih cs, encode_eq]
      simp [pieces]

theorem one_lt_length_block (bs : List UInt8) : 1 < (block bs).length := by
  have closed : closing.length = 25 := rfl
  rw [block, List.length_append]
  omega

theorem cuts_pieces {bs : List UInt8} {rest : List (List UInt8)}
    (h : ∀ cs ∈ bs :: rest, cs ≠ []) : ∀ p ∈ pieces bs rest,
      1 < p.length ∧ ∀ after, cutAfter? closing (p ++ after) = some (p, after) := by
  intro p hp
  rcases List.mem_cons.mp hp with rfl | hp
  · exact ⟨one_lt_length_block bs, cutAfter?_block (h bs (List.mem_cons_self ..))⟩
  · obtain ⟨cs, hcs, rfl⟩ := List.mem_map.mp hp
    refine ⟨Nat.lt_succ_of_lt (one_lt_length_block cs), fun after => ?_⟩
    have unmarked : after? closing (0x0a :: (block cs ++ after)) = none := rfl
    rw [List.cons_append, cutAfter?_cons unmarked,
      cutAfter?_block (h cs (List.mem_cons_of_mem _ hcs))]
    rfl

theorem split?_pieces {bs : List UInt8} {rest : List (List UInt8)}
    (h : ∀ cs ∈ bs :: rest, cs ≠ []) :
    split? (pieces bs rest).flatten = some (pieces bs rest) :=
  splitWithin_flatten (cuts_pieces h) (Nat.le_refl _)

theorem trim_concat {text : List UInt8} (first : text.head? = some 0x2d)
    (last : text.getLast? = some 0x2d) : trim (text ++ [0x0a]) = text := by
  obtain ⟨tail, opens⟩ := List.head?_eq_some_iff.mp first
  obtain ⟨init, closes⟩ := List.getLast?_eq_some_iff.mp last
  have front : (text ++ [0x0a]).dropWhile isBlank = text ++ [0x0a] := by
    rw [opens]
    exact List.dropWhile_cons_of_neg (by decide)
  have back : (0x0a :: text.reverse).dropWhile isBlank = text.reverse := by
    rw [List.dropWhile_cons_of_pos (by decide), closes, List.reverse_append]
    exact List.dropWhile_cons_of_neg (by decide)
  rw [trim, front, List.reverse_append]
  exact (congrArg List.reverse back).trans (List.reverse_reverse text)

theorem getLast?_flatten_pieces (bs : List UInt8) (rest : List (List UInt8)) :
    (pieces bs rest).flatten.getLast? = some 0x2d := by
  induction rest generalizing bs with
  | nil =>
      have closed : closing = closing.dropLast ++ [0x2d] := rfl
      rw [pieces, List.map_nil, List.flatten_singleton, block, closed, ← List.append_assoc,
        List.getLast?_concat]
  | cons cs rest ih =>
      have split : (pieces bs (cs :: rest)).flatten =
          block bs ++ [0x0a] ++ (pieces cs rest).flatten := by simp [pieces]
      rw [split, List.getLast?_append, ih]
      rfl

theorem armor?_bundle (bs : List UInt8) (rest : List (List UInt8)) :
    armor? ((bs :: rest).flatMap encode) = some (pieces bs rest).flatten := by
  obtain ⟨tail, opens⟩ : ∃ tail, (pieces bs rest).flatten = ascii "-----BEGIN" ++ tail := by
    refine ⟨0x20 :: (label ++ 0x0a :: wrap (Base64.encode bs) ++ closing ++
      (rest.map fun cs => 0x0a :: block cs).flatten), ?_⟩
    rw [pieces, List.flatten_cons, block, List.append_assoc, List.append_assoc, List.append_assoc,
      List.append_assoc]
    rfl
  have first : (pieces bs rest).flatten.head? = some 0x2d := by
    rw [opens]
    rfl
  have trimmed := trim_concat first (getLast?_flatten_pieces bs rest)
  have marked : (after? (ascii "-----BEGIN") (pieces bs rest).flatten).isSome = true := by
    rw [opens, after?_append]
    rfl
  rw [armor?, flatMap_encode, trimmed, if_pos marked]

theorem armor?_eq_none {b : UInt8} (unblank : isBlank b = false) (undashed : b ≠ 0x2d)
    (bs : List UInt8) : armor? (b :: bs) = none := by
  have front : (b :: bs).dropWhile isBlank = b :: bs :=
    List.dropWhile_cons_of_neg (by rw [unblank]; exact Bool.false_ne_true)
  have part : trim (b :: bs) <+: b :: bs := by
    have suffix := List.dropWhile_suffix isBlank (l := (b :: bs).reverse)
    rw [trim, front]
    rw [← List.reverse_prefix, List.reverse_reverse] at suffix
    exact suffix
  have unmarked : after? (ascii "-----BEGIN") (trim (b :: bs)) = none := by
    cases trimmed : trim (b :: bs) with
    | nil => rfl
    | cons c cs =>
        rw [trimmed] at part
        obtain rfl : c = b := (List.cons_prefix_cons.mp part).1
        exact if_neg (Ne.symm undashed)
  rw [armor?, unmarked, if_neg (by decide)]

theorem decode?_block {bs : List UInt8} (h : bs ≠ []) : decode? (block bs) = some bs := by
  refine decode?_of_afterOpening? h ?_
  rw [block, List.append_assoc, List.append_assoc]
  exact (afterOpening?_opening _).trans (congrArg some (List.append_assoc ..).symm)

theorem decode?_lineFeed_block {bs : List UInt8} (h : bs ≠ []) :
    decode? (0x0a :: block bs) = some bs := by
  refine decode?_of_afterOpening? h ?_
  rw [block, List.append_assoc, List.append_assoc]
  exact (afterOpening?_lineFeed _).trans (congrArg some (List.append_assoc ..).symm)

theorem map_decode?_pieces {bs : List UInt8} {rest : List (List UInt8)}
    (h : ∀ cs ∈ bs :: rest, cs ≠ []) :
    (pieces bs rest).map decode? = (bs :: rest).map some := by
  rw [pieces, List.map_cons, List.map_map, decode?_block (h bs (List.mem_cons_self ..)),
    List.map_cons]
  refine congrArg _ (List.map_congr_left fun cs hcs => ?_)
  exact decode?_lineFeed_block (h cs (List.mem_cons_of_mem _ hcs))

end TrustRoles.Pem
