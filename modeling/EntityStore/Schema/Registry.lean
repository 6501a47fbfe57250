import EntityStore.Error
import EntityStore.Schema.Entity

/-!
# The registry

The entities an adapter knows, one for each name, in the order of their names. Registering an
entity replaces the one of its name as a whole. The order is by code point and is the order in
which everything that goes through all entities goes through them.
-/

set_option autoImplicit false

namespace EntityStore

/-- An entity list in the order of names with one more, in the place of the one of its name. -/
def Registry.insert (e : Entity) : List Entity → List Entity
  | [] => [e]
  | f :: rest =>
    if e.name = f.name then e :: rest
    else if e.name < f.name then e :: f :: rest
    else f :: insert e rest

namespace Registry

theorem mem_insert {e f : Entity} {es : List Entity} (h : f ∈ insert e es) : f = e ∨ f ∈ es := by
  induction es with
  | nil => simpa [insert] using h
  | cons g rest ih =>
    simp only [insert] at h
    split at h
    · rcases List.mem_cons.mp h with h | h
      · exact .inl h
      · exact .inr (List.mem_cons_of_mem _ h)
    · split at h
      · rcases List.mem_cons.mp h with h | h
        · exact .inl h
        · exact .inr h
      · rcases List.mem_cons.mp h with h | h
        · exact .inr (h ▸ List.mem_cons_self)
        · rcases ih h with h | h
          · exact .inl h
          · exact .inr (List.mem_cons_of_mem _ h)

/-- Inserting keeps the names strictly increasing. -/
theorem pairwise_insert {e : Entity} {es : List Entity}
    (h : es.Pairwise (·.name < ·.name)) : (insert e es).Pairwise (·.name < ·.name) := by
  induction es with
  | nil => simp [insert]
  | cons f rest ih =>
    obtain ⟨hf, hrest⟩ := List.pairwise_cons.mp h
    simp only [insert]
    split
    · rename_i he
      exact List.pairwise_cons.mpr ⟨fun g hg => he ▸ hf g hg, hrest⟩
    · rename_i hne
      split
      · rename_i hlt
        refine List.pairwise_cons.mpr ⟨fun g hg => ?_, h⟩
        rcases List.mem_cons.mp hg with hg | hg
        · exact hg ▸ hlt
        · exact String.lt_trans hlt (hf g hg)
      · rename_i hnlt
        refine List.pairwise_cons.mpr ⟨fun g hg => ?_, ih hrest⟩
        rcases mem_insert hg with rfl | hg
        · rcases Std.lt_trichotomy f.name g.name with hlt | heq | hgt
          · exact hlt
          · exact absurd heq.symm hne
          · exact absurd hgt hnlt
        · exact hf g hg

end Registry

/-- The registered entities, their names strictly increasing. -/
structure Registry where
  entities : List Entity
  ordered : entities.Pairwise (·.name < ·.name)

namespace Registry

def empty : Registry := ⟨[], .nil⟩

def register (r : Registry) (e : Entity) : Registry :=
  ⟨insert e r.entities, pairwise_insert r.ordered⟩

def get? (r : Registry) (name : String) : Option Entity := r.entities.find? (·.name == name)

/-- The entity of a name, or the error that there is none. -/
def entity (r : Registry) (name : String) : Except Error Entity :=
  match r.get? name with
  | some e => .ok e
  | none => .error (.unknownEntity name)

def size (r : Registry) : Nat := r.entities.length

end Registry

end EntityStore
