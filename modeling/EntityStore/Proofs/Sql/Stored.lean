import EntityStore.Proofs.Sql.Constant

/-!
# Literals in rows

A literal that goes into a row denotes a constant, as one does that is compared with, or it is the
word that asks for the column's own default. In a statement it has commas, brackets and words around
it that none of its tokens must be mistaken for (`IsEntry`).
-/

set_option autoImplicit false

namespace EntityStore.Sql

/-- What is put into a column of a row. -/
inductive Cell where
  /-- The column's own default. -/
  | default
  | constant (c : Constant)

/-- What goes into a row for a constant: nothing at all is left to the table where the table counts
the attribute up itself. -/
def Cell.ofConstant (a : Attribute) : Constant → Cell
  | .null => if a.autoIncrement then .default else .constant .null
  | c => .constant c

/-- What a value denotes that an attribute stores. Only a date can denote none. -/
def storing (a : Attribute) (v : Value) : Except Error Cell :=
  (comparand a v).map (Cell.ofConstant a)

/-- The cell that some tokens are. -/
def cell? : List Token → Option Cell
  | [.word "default"] => some .default
  | ts =>
    match constant? ts with
    | some (c, []) => some (.constant c)
    | _ => none

/-! ## Entries of lists -/

/-- Whether a token can stand inside an entry of a list: it is no mark, and no word that ends a list
or what comes after it. -/
def Token.isInner : Token → Bool
  | .mark _ => false
  | .word text => text != "where" && text != "returning"
  | _ => true

/-- A text that is read as one entry of a list and may stand behind a blank. -/
structure IsEntry {α : Type} (item? : List Token → Option α) (text : String) (a : α) : Prop where
  reads : ∃ ts, Lexes text.toList ts ∧ item? ts = some a ∧ ∀ t ∈ ts, t.isInner = true
  opens : Opens text.toList

/-! ## Literals are entries -/

theorem isInner_of_constant? {ts : List Token} {c : Constant} (h : constant? ts = some (c, [])) :
    ∀ t ∈ ts, t.isInner = true := by
  unfold constant? at h
  split at h <;> simp_all [Token.isInner]

theorem Written.isEntry {c : Constant} {text : String} (h : Written c text) :
    IsEntry cell? text (.constant c) := by
  obtain ⟨ts, hlex, hread⟩ := h.reads
  have hall := hread []
  rw [List.append_nil] at hall
  refine ⟨⟨ts, hlex, ?_, isInner_of_constant? hall⟩, h.opens⟩
  unfold cell?
  split
  · cases hall
  · rw [hall]

theorem isEntry_default : IsEntry cell? default .default := by
  have h : isKeyword "DEFAULT" "default" = true := by decide
  exact ⟨⟨[.word "default"], lexes_keyword h, rfl, by simp [Token.isInner]⟩, opens_keyword h⟩

theorem Cell.ofConstant_of_ne_null {a : Attribute} {c : Constant} (h : c ≠ .null) :
    ofConstant a c = .constant c := by
  cases c with
  | null => exact absurd rfl h
  | _ => rfl

/-- What a value is written as for a row denotes what the row stores, so whatever is written denotes
something. -/
theorem written_stored {a : Attribute} {v : Value} {text : String} (h : stored a v = .ok text) :
    ∃ cell, storing a v = .ok cell ∧ IsEntry cell? text cell := by
  obtain ⟨c, hc, hwritten⟩ := written_encode h
  refine ⟨Cell.ofConstant a c, by rw [storing, hc]; rfl, ?_⟩
  obtain ⟨rfl, rfl⟩ | ⟨hne, hwritten⟩ := hwritten
  · rw [Cell.ofConstant]
    split
    · exact isEntry_default
    · exact written_null.isEntry
  · rw [Cell.ofConstant_of_ne_null hne]
    exact hwritten.isEntry

/-- A literal that is neither of those for absence denotes a constant that is something. -/
theorem written_of_stored {a : Attribute} {v : Value} {text : String} (h : stored a v = .ok text)
    (hnull : text ≠ null) (hdefault : text ≠ default) :
    ∃ c, comparand a v = .ok c ∧ c ≠ .null ∧ Written c text := by
  obtain ⟨c, hc, ⟨rfl, rfl⟩ | ⟨hne, hwritten⟩⟩ := written_encode h
  · split at hnull
    · next hauto => exact absurd (if_pos hauto) hdefault
    · exact absurd rfl hnull
  · exact ⟨c, hc, hne, hwritten⟩

end EntityStore.Sql
