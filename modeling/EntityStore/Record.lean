import EntityStore.Error
import EntityStore.Schema.Attribute
import EntityStore.Value

/-!
# Records

The values of one row as a host gives them: named fields in the order they were set. A field that
is set again keeps its place. A record may name attributes no entity declares; statements leave
them out.
-/

set_option autoImplicit false

namespace EntityStore

/-- Named values in the order they were set, each name once. -/
structure Record where
  fields : List (String × Value)
  distinct : (fields.map Prod.fst).Nodup

namespace Record

def empty : Record := ⟨[], .nil⟩

/-- Setting a key keeps the keys distinct. -/
theorem nodup_put {key : String} {v : Value} {fields : List (String × Value)}
    (h : (fields.map Prod.fst).Nodup) : ((Document.put key v fields).map Prod.fst).Nodup := by
  rw [Document.keys_put]
  split
  · exact h
  · rename_i hk
    exact List.nodup_append.mpr ⟨h, by simp, fun a ha b hb => by
      simp only [List.mem_singleton] at hb
      exact fun e => hk (hb ▸ e ▸ ha)⟩

def set (r : Record) (name : String) (v : Value) : Record :=
  ⟨Document.put name v r.fields, nodup_put r.distinct⟩

def get? (r : Record) (name : String) : Option Value := r.fields.lookup name

/-- The value that identifies the row, if there is one and it is not null. -/
def id? (r : Record) : Option Value := (r.get? identifier).filter (!·.isNull)

/-- The record with these fields set one after the other. -/
def ofFields (fields : List (String × Value)) : Record :=
  fields.foldl (fun r f => r.set f.1 f.2) empty

/-- Reads a record. Only an object is one. -/
def ofDocument : Document → Except Error Record
  | .object entries => .ok (ofFields (entries.map fun e => (e.1, .ofDocument e.2)))
  | d => .error (.recordNotObject d.compact)

end Record

end EntityStore
