namespace TrustRoles.Text

def ascii (s : String) : List UInt8 :=
  s.toList.map fun c => UInt8.ofNat c.toNat

variable {α : Type} [DecidableEq α]

def after? : List α → List α → Option (List α)
  | [], l => some l
  | _ :: _, [] => none
  | m :: ms, a :: as => if m = a then after? ms as else none

def cutAfter? (mark : List α) : List α → Option (List α × List α)
  | [] => if mark = [] then some ([], []) else none
  | a :: as =>
      match after? mark (a :: as) with
      | some rest => some (mark, rest)
      | none => (cutAfter? mark as).map fun r => (a :: r.1, r.2)

theorem after?_append (mark l : List α) : after? mark (mark ++ l) = some l := by
  induction mark with
  | nil => cases l <;> rfl
  | cons m ms ih => simp [after?, ih]

end TrustRoles.Text
