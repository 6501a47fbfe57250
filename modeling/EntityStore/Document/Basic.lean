import EntityStore.Number.Double

/-!
# Documents

A document is the structured value that hosts hand over and tables store: null, truth values,
numbers, text, lists, and objects whose entries keep the order they were written in. The order is
part of the value, because it is the order in which a filter's clauses are emitted and a stored
document is written.

A number is either whole or a double. Whole numbers come from the range of signed and unsigned
words of 64 bits; every other numeral is a double, and so is a negative zero, which no whole
number can hold.
-/

set_option autoImplicit false

namespace EntityStore

inductive DocumentNumber where
  | whole (n : Int)
  | double (x : Double)
  deriving DecidableEq

/-- A structured value. -/
inductive Document where
  | null
  | bool (b : Bool)
  | number (n : DocumentNumber)
  | text (s : String)
  | list (items : List Document)
  | object (entries : List (String × Document))

namespace Document

/-- An entry list with a key set: a key that is there keeps its place and takes the new value, a
new key comes last. -/
def put {α : Type} (key : String) (value : α) : List (String × α) → List (String × α)
  | [] => [(key, value)]
  | (k, v) :: rest => if k = key then (k, value) :: rest else (k, v) :: put key value rest

/-- The value under a key. -/
def entry? (d : Document) (key : String) : Option Document :=
  match d with
  | .object entries => entries.lookup key
  | _ => none

def text? : Document → Option String
  | .text s => some s
  | _ => none

/-- A whole number of the document within two bounds, both included. -/
def wholeWithin? (least greatest : Int) : Document → Option Int
  | .number (.whole n) => if least ≤ n && n ≤ greatest then some n else none
  | _ => none

/-! ## Setting keys -/

/-- Setting a key adds it to the keys only if it was not among them. -/
theorem keys_put {α : Type} (key : String) (value : α) (entries : List (String × α)) :
    (put key value entries).map Prod.fst =
      if key ∈ entries.map Prod.fst then entries.map Prod.fst
      else entries.map Prod.fst ++ [key] := by
  induction entries with
  | nil => simp [put]
  | cons e rest ih =>
    obtain ⟨k, v⟩ := e
    simp only [put]
    split
    · rename_i h; simp [h]
    · rename_i h
      have h' : ¬ key = k := fun e => h e.symm
      simp only [List.map_cons, ih, List.mem_cons, h', false_or]
      split <;> simp

end Document

end EntityStore
