import EntityStore.Proofs.Filter.Formula
import Mathlib.Tactic.Ring

/-!
# Formulas without regard to brackets

Two formulas that differ only in brackets which make no difference are alike: `AND` within `AND` and `OR`
within `OR` can be flattened, and brackets around a single operand can go. Formulas that are alike are true
of the same rows (`Alike.holds_iff`).

They also leave the same number of choices: pairs of atoms of which one is enough (`Alike.counts_eq`). That
tells formulas apart which are not alike.
-/

set_option autoImplicit false

namespace EntityStore

namespace Formula

variable {α β : Type}

mutual

def fold (atom : α → β) (and or : List β → β) : Formula α → β
  | .atom a => atom a
  | .and fs => and (foldEach atom and or fs)
  | .or fs => or (foldEach atom and or fs)

def foldEach (atom : α → β) (and or : List β → β) : List (Formula α) → List β
  | [] => []
  | f :: fs => f.fold atom and or :: foldEach atom and or fs

end

theorem foldEach_eq_map (atom : α → β) (and or : List β → β) (fs : List (Formula α)) :
    foldEach atom and or fs = fs.map (fold atom and or) := by
  induction fs with
  | nil => rfl
  | cons f fs ih => rw [foldEach, ih, List.map_cons]

mutual

theorem induction {motive : Formula α → Prop} (atom : ∀ a, motive (.atom a))
    (and : ∀ fs, (∀ f ∈ fs, motive f) → motive (.and fs))
    (or : ∀ fs, (∀ f ∈ fs, motive f) → motive (.or fs)) : (f : Formula α) → motive f
  | .atom a => atom a
  | .and fs => and fs (inductionEach atom and or fs)
  | .or fs => or fs (inductionEach atom and or fs)

theorem inductionEach {motive : Formula α → Prop} (atom : ∀ a, motive (.atom a))
    (and : ∀ fs, (∀ f ∈ fs, motive f) → motive (.and fs))
    (or : ∀ fs, (∀ f ∈ fs, motive f) → motive (.or fs)) : (fs : List (Formula α)) →
    ∀ f ∈ fs, motive f
  | [] => by simp
  | f :: fs => List.forall_mem_cons.mpr
    ⟨induction atom and or f, inductionEach atom and or fs⟩

end

/-- Formulas put together by `AND` or by `OR`. -/
def join (conjunction : Bool) (fs : List (Formula α)) : Formula α :=
  if conjunction then .and fs else .or fs

/-! ## Truth -/

/-- Whether a formula is true, given what is true of the atoms. -/
def Holds (v : α → Prop) : Formula α → Prop :=
  fold v (fun ps => ∀ p ∈ ps, p) (fun ps => ∃ p ∈ ps, p)

variable {v : α → Prop} {f g : Formula α} {fs gs : List (Formula α)}

theorem holds_and : (Formula.and fs).Holds v ↔ ∀ f ∈ fs, f.Holds v := by
  rw [Holds, fold, foldEach_eq_map, List.forall_mem_map]

theorem holds_or : (Formula.or fs).Holds v ↔ ∃ f ∈ fs, f.Holds v := by
  simp only [Holds, fold, foldEach_eq_map, List.mem_map, exists_exists_and_eq_and]

theorem holds_all : (all fs).Holds v ↔ ∀ f ∈ fs, f.Holds v := by
  rcases fs with _ | ⟨f, _ | ⟨f', fs⟩⟩
  · exact holds_and
  · simp [all]
  · exact holds_and

theorem holds_any : (any fs).Holds v ↔ ∃ f ∈ fs, f.Holds v := by
  rcases fs with _ | ⟨f, _ | ⟨f', fs⟩⟩
  · exact holds_or
  · simp [any]
  · exact holds_or

/-! ## Brackets that make no difference -/

/-- Formulas that differ only in brackets which make no difference. -/
inductive Alike : Formula α → Formula α → Prop where
  | refl (f : Formula α) : Alike f f
  | symm {f g : Formula α} : Alike f g → Alike g f
  | trans {f g h : Formula α} : Alike f g → Alike g h → Alike f h
  | single (conjunction : Bool) (f : Formula α) : Alike (join conjunction [f]) f
  | nested (conjunction : Bool) (front fs back : List (Formula α)) :
    Alike (join conjunction (front ++ join conjunction fs :: back))
      (join conjunction (front ++ fs ++ back))
  | part (conjunction : Bool) (front back : List (Formula α)) {f g : Formula α} : Alike f g →
    Alike (join conjunction (front ++ f :: back)) (join conjunction (front ++ g :: back))

namespace Alike

theorem holds_iff (h : Alike f g) : f.Holds v ↔ g.Holds v := by
  induction h with
  | refl f => rfl
  | symm _ ih => exact ih.symm
  | trans _ _ ih ih' => exact ih.trans ih'
  | single conjunction f => cases conjunction <;> simp [join, holds_and, holds_or]
  | nested conjunction front fs back =>
    cases conjunction
    · simp [join, holds_or, or_and_right, exists_or]
    · simp [join, holds_and, or_imp, forall_and]
  | part conjunction front back _ ih =>
    cases conjunction
    · simp [join, holds_or, or_and_right, exists_or, ih]
    · simp [join, holds_and, or_imp, forall_and, ih]

theorem parts (conjunction : Bool) {l : List β} {f g : β → Formula α} (h : ∀ b ∈ l, Alike (f b) (g b)) :
    Alike (join conjunction (l.map f)) (join conjunction (l.map g)) := by
  -- With anything in front of them, since that is where the parts go that are done.
  have hbehind : ∀ front : List (Formula α),
      Alike (join conjunction (front ++ l.map f)) (join conjunction (front ++ l.map g)) := by
    induction l with
    | nil => exact fun front => .refl _
    | cons b l ih =>
      obtain ⟨hfirst, hrest⟩ := List.forall_mem_cons.mp h
      intro front
      have hmore := ih hrest (front ++ [g b])
      rw [List.append_assoc, List.append_assoc] at hmore
      exact (part conjunction front (l.map f) hfirst).trans hmore
  exact hbehind []

theorem flatten (conjunction : Bool) (fss : List (List (Formula α))) :
    Alike (join conjunction (fss.map (join conjunction))) (join conjunction fss.flatten) := by
  have hbehind : ∀ front : List (Formula α),
      Alike (join conjunction (front ++ fss.map (join conjunction)))
        (join conjunction (front ++ fss.flatten)) := by
    induction fss with
    | nil => exact fun front => .refl _
    | cons fs fss ih =>
      intro front
      have hmore := ih (front ++ fs)
      rw [List.append_assoc front fs fss.flatten] at hmore
      exact (nested conjunction front fs _).trans hmore
  exact hbehind []

theorem all (fs : List (Formula α)) : Alike (Formula.all fs) (.and fs) := by
  rcases fs with _ | ⟨f, _ | ⟨f', fs⟩⟩
  · exact .refl _
  · exact (single true f).symm
  · exact .refl _

theorem any (fs : List (Formula α)) : Alike (Formula.any fs) (.or fs) := by
  rcases fs with _ | ⟨f, _ | ⟨f', fs⟩⟩
  · exact .refl _
  · exact (single false f).symm
  · exact .refl _

end Alike

/-! ## Counting -/

/-- The sum of all products of two of some numbers. -/
def products : List Nat → Nat
  | [] => 0
  | n :: ns => n * ns.sum + products ns

theorem products_append (ms ns : List Nat) :
    products (ms ++ ns) = products ms + products ns + ms.sum * ns.sum := by
  induction ms with
  | nil => simp [products]
  | cons m ms ih =>
    simp only [List.cons_append, products, ih, List.sum_append, List.sum_cons]
    ring

/-- The number of atoms, and of pairs of atoms that the formula leaves a choice between. -/
def counts : Formula α → Nat × Nat :=
  fold (fun _ => (1, 0)) (fun ns => ((ns.map (·.1)).sum, (ns.map (·.2)).sum))
    (fun ns => ((ns.map (·.1)).sum, (ns.map (·.2)).sum + products (ns.map (·.1))))

def size (f : Formula α) : Nat := f.counts.1

def choices (f : Formula α) : Nat := f.counts.2

theorem size_join (conjunction : Bool) (fs : List (Formula α)) :
    (join conjunction fs).size = (fs.map size).sum := by
  cases conjunction <;>
    simp only [join, size, counts, fold, foldEach_eq_map, List.map_map, Bool.false_eq_true, if_false,
      if_true] <;> rfl

theorem choices_join (conjunction : Bool) (fs : List (Formula α)) : (join conjunction fs).choices
    = (fs.map choices).sum + if conjunction then 0 else products (fs.map size) := by
  cases conjunction <;>
    simp only [join, choices, counts, fold, foldEach_eq_map, List.map_map, Bool.false_eq_true, if_false,
      if_true] <;> rfl

/-- Brackets that make no difference do not count. -/
theorem Alike.counts_eq (h : Alike f g) : f.size = g.size ∧ f.choices = g.choices := by
  induction h with
  | refl f => exact ⟨rfl, rfl⟩
  | symm _ ih => exact ⟨ih.1.symm, ih.2.symm⟩
  | trans _ _ ih ih' => exact ⟨ih.1.trans ih'.1, ih.2.trans ih'.2⟩
  | single conjunction f =>
    constructor
    · simp [size_join]
    · simp [choices_join, products]
  | nested conjunction front fs back =>
    constructor
    · simp [size_join]
    · simp only [choices_join, size_join, List.map_append, List.map_cons, List.sum_append, List.sum_cons,
        products_append, products]
      cases conjunction
      · simp
        ring
      · simp [Nat.add_assoc]
  | part conjunction front back _ ih =>
    constructor
    · simp [size_join, ih.1]
    · simp [choices_join, ih.1, ih.2]

theorem size_all (fs : List (Formula α)) : (all fs).size = (fs.map size).sum :=
  (Alike.all fs).counts_eq.1.trans (size_join true fs)

theorem choices_all (fs : List (Formula α)) : (all fs).choices = (fs.map choices).sum :=
  (Alike.all fs).counts_eq.2.trans (choices_join true fs)

theorem size_any (fs : List (Formula α)) : (any fs).size = (fs.map size).sum :=
  (Alike.any fs).counts_eq.1.trans (size_join false fs)

theorem choices_any (fs : List (Formula α)) :
    (any fs).choices = (fs.map choices).sum + products (fs.map size) :=
  (Alike.any fs).counts_eq.2.trans (choices_join false fs)

end Formula

end EntityStore
