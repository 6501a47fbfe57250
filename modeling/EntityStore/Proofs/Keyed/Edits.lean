import EntityStore.Proofs.Keyed

/-!
# Changes of lists in which every name occurs once

A change of such a list is about one name. It finds what there is under the name, or that there is
nothing, and either it can make something else of it or it cannot be made at all. What it makes stands
where the old one stood, or at the end if there was none.

Because a change leaves all other names alone, a list of changes can be judged name by name: it can be
made if the changes of each single name can be made one after the other, and under each name there is
then what its own changes have made (`exists_run`). In which order the changes of different names come
makes no difference to that.
-/

set_option autoImplicit false

namespace EntityStore.Keyed

/-- How changes act on a list of things that are told apart by their names. -/
structure Editing (α γ : Type) where
  key : α → String
  /-- The name that a change is about. -/
  target : γ → String
  /-- What a change makes of what it finds under its name; nothing if it cannot be made of that. -/
  edit : γ → Option α → Option (Option α)
  key_of_edit : ∀ {c : γ} {found : Option α} {b : α}, (∀ a ∈ found, key a = target c) →
    edit c found = some (some b) → key b = target c

namespace Editing

variable {α γ : Type} (ed : Editing α γ)

def find? (l : List α) (n : String) : Option α := l.find? (ed.key · == n)

/-- The list with something else under a name. -/
def put (l : List α) (n : String) : Option α → List α
  | none => l.filter (ed.key · != n)
  | some b => if l.any (ed.key · == n) then l.map fun a => if ed.key a = n then b else a else l ++ [b]

/-- The list after a change, if it can be made. -/
def after? (l : List α) (c : γ) : Option (List α) :=
  (ed.edit c (ed.find? l (ed.target c))).map (ed.put l (ed.target c))

/-- What changes make of what there is under a name, those of other names left out. -/
def fate (cs : List γ) (n : String) (found : Option α) : Option (Option α) :=
  (cs.filter (ed.target · == n)).foldlM (fun found c => ed.edit c found) found

variable {ed} {l l' : List α} {n m : String}

theorem key_of_mem_find? {a : α} (h : a ∈ ed.find? l n) : ed.key a = n := key_of_find? h

theorem key_replaced {b : α} (hb : ed.key b = n) (a : α) :
    ed.key (if ed.key a = n then b else a) = ed.key a := by
  split
  · next ha => exact hb.trans ha.symm
  · rfl

theorem find?_filter : ed.find? (l.filter (ed.key · != n)) m = if n = m then none else ed.find? l m := by
  rw [find?, find?, List.find?_filter]
  by_cases hn : n = m
  · subst hn
    simp
  · rw [if_neg hn]
    refine find?_congr fun a _ => ?_
    by_cases ha : ed.key a = m
    · simp [ha, Ne.symm hn]
    · simp [ha]

theorem find?_replaced {b : α} (hb : ed.key b = n) (htaken : ∃ a ∈ l, ed.key a = n) :
    ed.find? (l.map fun a => if ed.key a = n then b else a) m
      = if n = m then some b else ed.find? l m := by
  have hkeys : ((ed.key · == m) ∘ fun a => if ed.key a = n then b else a) = (ed.key · == m) := by
    funext a
    rw [Function.comp_apply, key_replaced hb]
  rw [find?, List.find?_map, hkeys, ← find?]
  by_cases hn : n = m
  · subst hn
    obtain ⟨a, ha⟩ := Option.isSome_iff_exists.mp (find?_isSome_iff.mpr htaken)
    have ha' : ed.find? l n = some a := ha
    rw [ha', Option.map_some, if_pos (key_of_find? ha), if_pos rfl]
  · rw [if_neg hn]
    cases hm : ed.find? l m with
    | none => rfl
    | some a =>
      have ha : ed.key a ≠ n := fun h => hn (h.symm.trans (key_of_find? hm))
      rw [Option.map_some, if_neg ha]

theorem find?_concat {b : α} (hb : ed.key b = n) (hfree : ∀ a ∈ l, ed.key a ≠ n) :
    ed.find? (l ++ [b]) m = if n = m then some b else ed.find? l m := by
  rw [find?, List.find?_append, find?_cons, List.find?_nil, hb, ← find?]
  by_cases hn : n = m
  · subst hn
    have hnone : ed.find? l n = none := find?_eq_none_iff.mpr hfree
    rw [hnone, if_pos rfl, Option.none_or]
  · rw [if_neg hn, if_neg hn, Option.or_none]

/-- What is put under a name is found under it, and nothing else has changed. -/
theorem find?_put {x : Option α} (hx : ∀ b ∈ x, ed.key b = n) :
    ed.find? (ed.put l n x) m = if n = m then x else ed.find? l m := by
  cases x with
  | none => exact find?_filter
  | some b =>
    simp only [put]
    split
    · next htaken => exact find?_replaced (hx b rfl) (by simpa using htaken)
    · next hfree => exact find?_concat (hx b rfl) (by simpa using hfree)

theorem nodup_put {x : Option α} (hx : ∀ b ∈ x, ed.key b = n) (hl : (l.map ed.key).Nodup) :
    ((ed.put l n x).map ed.key).Nodup := by
  cases x with
  | none => exact hl.sublist (List.filter_sublist.map _)
  | some b =>
    have hb : ed.key b = n := hx b rfl
    simp only [put]
    split
    · have hkeys : (ed.key ∘ fun a => if ed.key a = n then b else a) = ed.key := funext (key_replaced hb)
      rwa [List.map_map, hkeys]
    · next hfree =>
      have hnew : ed.key b ∉ l.map ed.key := by
        rw [hb]
        simpa using hfree
      rw [List.map_append]
      exact List.nodup_append.mpr ⟨hl, List.nodup_singleton _, by simpa using hnew⟩

/-- A change that can be made makes what it says of what is under its name, and leaves all other
names alone. -/
theorem after?_eq_some {c : γ} {x : Option α} (h : ed.edit c (ed.find? l (ed.target c)) = some x) :
    ed.after? l c = some (ed.put l (ed.target c) x)
      ∧ ∀ b ∈ x, ed.key b = ed.target c := by
  refine ⟨by rw [after?, h, Option.map_some], ?_⟩
  rintro b rfl
  exact ed.key_of_edit (fun _ ha => key_of_mem_find? ha) h

/-- Changes can be made one after the other if those of each name can be, and what these make of a name
is what there is under it afterwards. -/
theorem exists_run {P : String → Option α → Prop} {cs : List γ} (hl : (l.map ed.key).Nodup)
    (h : ∀ n, ∃ x, ed.fate cs n (ed.find? l n) = some x ∧ P n x) :
    ∃ after, cs.foldlM ed.after? l = some after ∧ (after.map ed.key).Nodup
      ∧ ∀ n, P n (ed.find? after n) := by
  induction cs generalizing l with
  | nil =>
    refine ⟨l, rfl, hl, fun n => ?_⟩
    obtain ⟨x, hx, hP⟩ := h n
    cases hx
    exact hP
  | cons c cs ih =>
    -- The changes of the name of the first change begin with it.
    obtain ⟨x, hx, hrest⟩ : ∃ x, ed.edit c (ed.find? l (ed.target c)) = some x
        ∧ ∃ y, ed.fate cs (ed.target c) x = some y ∧ P (ed.target c) y := by
      obtain ⟨y, hy, hP⟩ := h (ed.target c)
      rw [fate, List.filter_cons_of_pos (by simp), List.foldlM_cons] at hy
      obtain ⟨x, hx, hxy⟩ := Option.bind_eq_some_iff.mp hy
      exact ⟨x, hx, y, hxy, hP⟩
    obtain ⟨hstep, hkeys⟩ := after?_eq_some hx
    rw [List.foldlM_cons, hstep]
    refine ih (nodup_put hkeys hl) fun n => ?_
    rw [find?_put hkeys]
    by_cases hn : ed.target c = n
    · subst hn
      rw [if_pos rfl]
      exact hrest
    · obtain ⟨y, hy, hP⟩ := h n
      rw [fate, List.filter_cons_of_neg (by simpa using hn)] at hy
      rw [if_neg hn]
      exact ⟨y, hy, hP⟩

/-- Where a list of changes can be made, each of them can be made when its turn comes. -/
theorem exists_turn {after : List α} {before : List γ} {c : γ} {rest : List γ}
    (h : (before ++ c :: rest).foldlM ed.after? l = some after) :
    ∃ now, before.foldlM ed.after? l = some now
      ∧ ∃ x, ed.edit c (ed.find? now (ed.target c)) = some x := by
  rw [List.foldlM_append] at h
  obtain ⟨now, hbefore, hnow⟩ := Option.bind_eq_some_iff.mp h
  rw [List.foldlM_cons] at hnow
  obtain ⟨next, hnext, -⟩ := Option.bind_eq_some_iff.mp hnow
  obtain ⟨x, hx, -⟩ := Option.map_eq_some_iff.mp hnext
  exact ⟨now, hbefore, x, hx⟩

end Editing

end EntityStore.Keyed
