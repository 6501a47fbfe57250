import Mathlib.Data.List.Nodup

/-!
# Lists in which every name occurs once

Attributes, columns and indexes are kept in lists, in an order that matters, and are looked for by
name. Where no name occurs twice, what a list says about a name is said by the one element that has
it.
-/

set_option autoImplicit false

namespace EntityStore.Keyed

variable {α β : Type} {key : α → String} {l : List α} {n : String} {a : α}

theorem find?_eq_none_iff : l.find? (key · == n) = none ↔ ∀ a ∈ l, key a ≠ n := by
  simp [List.find?_eq_none]

theorem find?_cons :
    (a :: l).find? (key · == n) = if key a = n then some a else l.find? (key · == n) := by
  by_cases ha : key a = n
  · rw [List.find?_cons_of_pos (by simpa using ha), if_pos ha]
  · rw [List.find?_cons_of_neg (by simpa using ha), if_neg ha]

/-- What is found under a name has the name. -/
theorem key_of_find? (h : l.find? (key · == n) = some a) : key a = n := by
  simpa using List.find?_some h

/-- What is found is the only one with its name. -/
theorem find?_eq_some_iff (hl : (l.map key).Nodup) :
    l.find? (key · == n) = some a ↔ a ∈ l ∧ key a = n := by
  refine ⟨fun h => ⟨List.mem_of_find?_eq_some h, key_of_find? h⟩, ?_⟩
  rintro ⟨ha, rfl⟩
  cases h : l.find? (key · == key a) with
  | none => exact absurd rfl (find?_eq_none_iff.mp h a ha)
  | some b =>
    rw [List.inj_on_of_nodup_map hl (List.mem_of_find?_eq_some h) ha (key_of_find? h)]

/-- In which order the elements stand makes no difference. -/
theorem find?_perm {l' : List α} (hp : l'.Perm l) (hl : (l.map key).Nodup) :
    l'.find? (key · == n) = l.find? (key · == n) := by
  have hl' : (l'.map key).Nodup := (hp.map key).nodup_iff.mpr hl
  refine Option.ext fun a => ?_
  rw [find?_eq_some_iff hl', find?_eq_some_iff hl, hp.mem_iff]

/-- Something is found exactly under the names of the elements. -/
theorem find?_isSome_iff : (l.find? (key · == n)).isSome = true ↔ ∃ a ∈ l, key a = n := by
  simp [List.find?_isSome]

theorem find?_congr {p q : α → Bool} (h : ∀ a ∈ l, p a = q a) : l.find? p = l.find? q := by
  induction l with
  | nil => rfl
  | cons a l ih =>
    rw [List.forall_mem_cons] at h
    rw [List.find?_cons, List.find?_cons, h.1, ih h.2]

/-- Where only the element of a name contributes anything, that is all there is. -/
theorem flatMap_eq {f : α → List β} (hl : (l.map key).Nodup)
    (hf : ∀ a ∈ l, key a ≠ n → f a = []) :
    l.flatMap f = ((l.find? (key · == n)).map f).getD [] := by
  induction l with
  | nil => rfl
  | cons a l ih =>
    rw [List.map_cons, List.nodup_cons] at hl
    obtain ⟨ha, hl⟩ := hl
    have hrest := fun b hb => hf b (List.mem_cons_of_mem a hb)
    rw [List.flatMap_cons, ih hl hrest]
    by_cases hn : key a = n
    · have hnone : l.find? (key · == n) = none := by
        rw [find?_eq_none_iff]
        intro b hb hkey
        exact ha (List.mem_map.mpr ⟨b, hb, hkey.trans hn.symm⟩)
      rw [hnone, List.find?_cons_of_pos (by simp [hn])]
      exact List.append_nil _
    · rw [hf a List.mem_cons_self hn, List.find?_cons_of_neg (by simp [hn]), List.nil_append]

/-- Of what a list contributes element by element, under the names of the elements, a name is
contributed by the element that has it. -/
theorem filter_flatMap {f : α → List β} {name : β → String} (hl : (l.map key).Nodup)
    (hf : ∀ a ∈ l, ∀ b ∈ f a, name b = key a) (n : String) :
    (l.flatMap f).filter (name · == n) = ((l.find? (key · == n)).map f).getD [] := by
  have hother : ∀ a ∈ l, key a ≠ n → (f a).filter (name · == n) = [] := by
    intro a ha hkey
    rw [List.filter_eq_nil_iff]
    intro b hb
    rw [hf a ha b hb]
    simpa using hkey
  rw [List.filter_flatMap, flatMap_eq hl hother]
  cases h : l.find? (key · == n) with
  | none => rfl
  | some a =>
    rw [Option.map_some, Option.map_some, Option.getD_some, Option.getD_some, List.filter_eq_self]
    intro b hb
    rw [hf a (List.mem_of_find?_eq_some h) b hb]
    simpa using key_of_find? h

theorem filterMap_eq_flatMap (f : α → Option β) (l : List α) :
    l.filterMap f = l.flatMap fun a => (f a).toList := by
  induction l with
  | nil => rfl
  | cons a l ih => cases h : f a <;> simp [h, ih]

end EntityStore.Keyed
