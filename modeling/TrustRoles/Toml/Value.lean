namespace TrustRoles.Toml

inductive TableForm where
  | headed
  | implied
  | dotted
  | inlined
  deriving DecidableEq, Repr

inductive Value where
  | text (s : String)
  | boolean (b : Bool)
  | integer (n : Int)
  | float (digits : String)
  | moment (digits : String)
  | array (items : List Value)
  | tables (items : List Value)
  | table (form : TableForm) (entries : List (String × Value))

abbrev Entries := List (String × Value)

abbrev Key := List String

namespace Entries

def set (es : Entries) (k : String) (v : Value) : Entries :=
  es.map fun e => if e.1 = k then (k, v) else e

abbrev Change := TableForm → Entries → Option (TableForm × Entries)

inductive Spelling where
  | heading
  | dotting
  deriving DecidableEq, Repr

namespace Spelling

def created : Spelling → TableForm
  | heading => .implied
  | dotting => .dotted

def mayPass : Spelling → TableForm → Bool
  | _, .inlined => false
  | dotting, .headed => false
  | _, _ => true

end Spelling

def descend (sp : Spelling) : Key → Change → Change
  | [], change, form, es => change form es
  | k :: ks, change, form, es =>
      match es.lookup k with
      | none => do
          let (made, sub) ← descend sp ks change sp.created []
          some (form, es ++ [(k, .table made sub)])
      | some (.table old sub) =>
          if sp.mayPass old then do
            let (new, sub) ← descend sp ks change old sub
            some (form, es.set k (.table new sub))
          else none
      | some (.tables items) =>
          match items.getLast? with
          | some (.table old sub) => do
              let (new, sub) ← descend sp ks change old sub
              some (form, es.set k (.tables (items.dropLast ++ [.table new sub])))
          | _ => none
      | some _ => none

def add (dots : Bool) (k : String) (v : Value) : Change := fun form es =>
  if decide (form = .dotted) = dots ∧ (es.lookup k).isNone = true then some (form, es ++ [(k, v)])
  else none

def assign (key : Key) (v : Value) : Change := fun form es =>
  match key.getLast? with
  | none => none
  | some k => descend .dotting key.dropLast (add (!key.dropLast.isEmpty) k v) form es

def head (k : String) : Change := fun form es =>
  match es.lookup k with
  | none => some (form, es ++ [(k, .table .headed [])])
  | some (.table .implied sub) => some (form, es.set k (.table .headed sub))
  | some _ => none

def headNext (k : String) : Change := fun form es =>
  match es.lookup k with
  | none => some (form, es ++ [(k, .tables [.table .headed []])])
  | some (.tables items) => some (form, es.set k (.tables (items ++ [.table .headed []])))
  | some _ => none

end Entries

structure Draft where
  root : Entries
  current : Key

namespace Draft

def empty : Draft := ⟨[], []⟩

def assign (d : Draft) (key : Key) (v : Value) : Option Draft := do
  let (_, root) ← Entries.descend .heading d.current (Entries.assign key v) .headed d.root
  some ⟨root, d.current⟩

def head (d : Draft) (key : Key) : Option Draft := do
  let last ← key.getLast?
  let (_, root) ← Entries.descend .heading key.dropLast (Entries.head last) .headed d.root
  some ⟨root, key⟩

def headNext (d : Draft) (key : Key) : Option Draft := do
  let last ← key.getLast?
  let (_, root) ← Entries.descend .heading key.dropLast (Entries.headNext last) .headed d.root
  some ⟨root, key⟩

end Draft

end TrustRoles.Toml
