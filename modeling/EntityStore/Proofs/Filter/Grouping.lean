import EntityStore.Proofs.Filter.Alike
import Mathlib.Algebra.Order.BigOperators.Group.List

/-!
# Texts without brackets

A text without brackets around it is more than its formula: `a OR b` beside another text with an `AND`
between them loses its `a` to that text. So a text is kept as alternatives of factors, and texts are put
together as such (`spliced`). What they were meant to be put together to is another formula (`grafted`).
The two are alike exactly if no text with an alternative has a neighbour that is joined to it with an
`AND` and no bracket (`alike_iff_not_exposed`). In every case the first one is true where the second is.
-/

set_option autoImplicit false

namespace EntityStore

/-! ## Alternatives -/

/-- Formulas put together by `AND`, in lists put together by `OR`. -/
abbrev Alternatives (α : Type) := List (List (Formula α))

namespace Alternatives

variable {α : Type}

def formula (as : Alternatives α) : Formula α := .any (as.map .all)

/-- Two lists of alternatives with an `AND` between them: the last one of the first list goes on with the
first one of the second list. -/
def meet {β : Type} : List (List β) → List (List β) → List (List β)
  | [], bs => bs
  | [a], [] => [a]
  | [a], b :: bs => (a ++ b) :: bs
  | a :: a' :: as, bs => a :: meet (a' :: as) bs

section Meet

variable {β γ : Type}

theorem flatten_meet (as bs : List (List β)) : (meet as bs).flatten = as.flatten ++ bs.flatten := by
  induction as, bs using meet.induct with
  | case1 bs => rfl
  | case2 a => simp [meet]
  | case3 a b bs => simp [meet]
  | case4 a a' as bs ih =>
    rw [meet, List.flatten_cons, ih]
    simp

theorem map_meet (f : β → γ) (as bs : List (List β)) :
    (meet as bs).map (·.map f) = meet (as.map (·.map f)) (bs.map (·.map f)) := by
  induction as, bs using meet.induct with
  | case1 bs => rfl
  | case2 a => rfl
  | case3 a b bs => simp [meet]
  | case4 a a' as bs ih =>
    rw [meet, List.map_cons, ih]
    rfl

theorem length_meet {as bs : List (List β)} (ha : as ≠ []) (hb : bs ≠ []) :
    (meet as bs).length + 1 = as.length + bs.length := by
  induction as, bs using meet.induct with
  | case1 bs => exact absurd rfl ha
  | case2 a => exact absurd rfl hb
  | case3 a b bs =>
    simp only [meet, List.length_cons, List.length_nil]
    omega
  | case4 a a' as bs ih =>
    have hrest := ih (List.cons_ne_nil _ _) hb
    simp only [meet, List.length_cons] at hrest ⊢
    omega

end Meet

variable {v : α → Prop} {as bs : Alternatives α}

theorem holds_formula : as.formula.Holds v ↔ ∃ a ∈ as, ∀ f ∈ a, f.Holds v := by
  simp only [formula, Formula.holds_any, List.mem_map, exists_exists_and_eq_and, Formula.holds_all]

/-- Where both conditions are true, they are true together, whatever belongs to what. -/
theorem holds_meet (ha : as.formula.Holds v) (hb : bs.formula.Holds v) :
    (Alternatives.formula (meet as bs)).Holds v := by
  rw [holds_formula] at ha hb ⊢
  induction as, bs using meet.induct with
  | case1 bs => exact hb
  | case2 a => exact ha
  | case3 a b bs =>
    obtain ⟨c, hc, hholds⟩ := hb
    rcases List.mem_cons.mp hc with rfl | hc
    · have hfirst : ∀ f ∈ a, f.Holds v := by simpa using ha
      exact ⟨a ++ c, List.mem_cons_self, List.forall_mem_append.mpr ⟨hfirst, hholds⟩⟩
    · exact ⟨c, List.mem_cons_of_mem _ hc, hholds⟩
  | case4 a a' as bs ih =>
    obtain ⟨c, hc, hholds⟩ := ha
    rcases List.mem_cons.mp hc with rfl | hc
    · exact ⟨c, List.mem_cons_self, hholds⟩
    · obtain ⟨d, hd, hholds'⟩ := ih ⟨c, hc, hholds⟩ hb
      exact ⟨d, List.mem_cons_of_mem _ hd, hholds'⟩

/-! ## Counting in alternatives -/

def weight (a : List (Formula α)) : Nat := (a.map Formula.size).sum

/-- There is an alternative, and each of them has an atom. -/
def Full (as : Alternatives α) : Prop := as ≠ [] ∧ ∀ a ∈ as, 0 < weight a

theorem size_formula (as : Alternatives α) :
    as.formula.size = (as.flatten.map Formula.size).sum := by
  rw [formula, Formula.size_any, List.map_map]
  induction as with
  | nil => rfl
  | cons a as ih => simp [ih, Formula.size_all]

@[simp] theorem size_formula_nil : (formula ([] : Alternatives α)).size = 0 := rfl

@[simp] theorem choices_formula_nil : (formula ([] : Alternatives α)).choices = 0 := rfl

theorem choices_formula_cons (a : List (Formula α)) (as : Alternatives α) :
    (formula (a :: as)).choices
      = (a.map Formula.choices).sum + as.formula.choices + weight a * as.formula.size := by
  simp only [formula, Formula.choices_any, Formula.size_any, List.map_cons, List.sum_cons,
    Formula.products, Formula.choices_all, Formula.size_all, weight]
  ring

theorem size_meet (as bs : Alternatives α) :
    (formula (meet as bs)).size = as.formula.size + bs.formula.size := by
  simp only [size_formula, flatten_meet, List.map_append, List.sum_append]

theorem size_pos (h : Full as) : 0 < as.formula.size := by
  obtain ⟨a, as, rfl⟩ := List.exists_cons_of_ne_nil h.1
  have hweight := h.2 a List.mem_cons_self
  rw [size_formula, List.flatten_cons, List.map_append, List.sum_append]
  unfold weight at hweight
  omega

/-- An `AND` between them takes no choice away, whatever belongs to what. -/
theorem choices_le_meet (as bs : Alternatives α) :
    as.formula.choices + bs.formula.choices ≤ (formula (meet as bs)).choices := by
  induction as, bs using meet.induct with
  | case1 bs => exact (Nat.zero_add _).le
  | case2 a => exact (Nat.add_zero _).le
  | case3 a b bs =>
    simp only [meet, choices_formula_cons, size_formula_nil, choices_formula_nil, weight, List.map_append,
      List.sum_append, Nat.add_mul]
    omega
  | case4 a a' as bs ih =>
    rw [meet, choices_formula_cons, choices_formula_cons a, size_meet, Nat.mul_add]
    omega

/-- If there are alternatives on one side, it adds a choice: between an alternative that is not joined and
the other side. -/
theorem choices_lt_meet (ha : Full as) (hb : Full bs) (h : 2 ≤ as.length ∨ 2 ≤ bs.length) :
    as.formula.choices + bs.formula.choices < (formula (meet as bs)).choices := by
  obtain ⟨b, bs, rfl⟩ := List.exists_cons_of_ne_nil hb.1
  rcases as with _ | ⟨a, _ | ⟨a', as⟩⟩
  · exact absurd rfl ha.1
  -- The first of the alternatives takes `a` up, and one may choose another instead.
  · have hweight := ha.2 a List.mem_cons_self
    have hfull : Full bs := by
      refine ⟨?_, fun c hc => hb.2 c (List.mem_cons_of_mem _ hc)⟩
      rintro rfl
      simp at h
    have hpos := Nat.mul_pos hweight (size_pos hfull)
    simp only [meet, choices_formula_cons, size_formula_nil, choices_formula_nil, weight, List.map_append,
      List.sum_append, Nat.add_mul] at hpos ⊢
    omega
  -- One may choose `a` instead of everything that follows.
  · have hweight := ha.2 a List.mem_cons_self
    have hpos := Nat.mul_pos hweight (size_pos hb)
    have hle := choices_le_meet (a' :: as) (b :: bs)
    rw [meet, choices_formula_cons a, choices_formula_cons a, size_meet, Nat.mul_add]
    omega

theorem full_meet (ha : Full as) (hb : Full bs) : Full (meet as bs) := by
  induction as, bs using meet.induct with
  | case1 bs => exact hb
  | case2 a => exact ha
  | case3 a b bs =>
    have hweight := ha.2 a List.mem_cons_self
    obtain ⟨-, hrest⟩ := List.forall_mem_cons.mp hb.2
    refine ⟨List.cons_ne_nil _ _, List.forall_mem_cons.mpr ⟨?_, hrest⟩⟩
    simp only [weight, List.map_append, List.sum_append] at hweight ⊢
    omega
  | case4 a a' as bs ih =>
    obtain ⟨hweight, hrest⟩ := List.forall_mem_cons.mp ha.2
    have hmore := ih ⟨List.cons_ne_nil _ _, hrest⟩ hb
    exact ⟨List.cons_ne_nil _ _, List.forall_mem_cons.mpr ⟨hweight, hmore.2⟩⟩

theorem full_single {f : Formula α} (h : 0 < f.size) : Full [[f]] := by
  refine ⟨List.cons_ne_nil _ _, List.forall_mem_singleton.mpr ?_⟩
  simpa [weight] using h

/-! ## Many texts -/

/-- Some texts put together by `AND` without brackets. -/
def meetAll {β : Type} (ass : List (List (List β))) : List (List β) := ass.foldr meet []

theorem meet_nil {β : Type} (as : List (List β)) : meet as [] = as := by
  rcases as with _ | ⟨a, _ | ⟨a', as⟩⟩
  · rfl
  · rfl
  · rw [meet]
    exact congrArg (a :: ·) (meet_nil (a' :: as))

theorem meetAll_single {β : Type} (as : List (List β)) : meetAll [as] = as := meet_nil as

variable {ass : List (Alternatives α)}

theorem full_meetAll (hne : ass ≠ []) (h : ∀ as ∈ ass, Full as) : Full (meetAll ass) := by
  induction ass with
  | nil => exact absurd rfl hne
  | cons as ass ih =>
    obtain ⟨has, hrest⟩ := List.forall_mem_cons.mp h
    cases ass with
    | nil =>
      rw [meetAll_single]
      exact has
    | cons bs ass => exact full_meet has (ih (List.cons_ne_nil _ _) hrest)

theorem size_meetAll (ass : List (Alternatives α)) :
    (formula (meetAll ass)).size = (ass.map fun as => as.formula.size).sum := by
  induction ass with
  | nil => rfl
  | cons as ass ih =>
    rw [List.map_cons, List.sum_cons, ← ih]
    exact size_meet as (meetAll ass)

theorem choices_le_meetAll (ass : List (Alternatives α)) :
    (ass.map fun as => as.formula.choices).sum ≤ (formula (meetAll ass)).choices := by
  induction ass with
  | nil => exact Nat.zero_le _
  | cons as ass ih =>
    have hmeet := choices_le_meet as (meetAll ass)
    rw [List.map_cons, List.sum_cons]
    exact (Nat.add_le_add_left ih _).trans hmeet

/-- As many alternatives as any of the texts has. -/
theorem length_le_meetAll (h : ∀ as ∈ ass, as ≠ []) :
    ∀ as ∈ ass, as.length ≤ (meetAll ass).length := by
  induction ass with
  | nil => simp
  | cons as ass ih =>
    obtain ⟨has, hrest⟩ := List.forall_mem_cons.mp h
    have hlength : ∀ cs ∈ ass, cs.length ≤ (meetAll ass).length := ih hrest
    cases ass with
    | nil => simp [meetAll_single]
    | cons bs ass =>
      have hbs := hlength bs List.mem_cons_self
      have hpos := List.length_pos_iff.mpr (hrest bs List.mem_cons_self)
      have hne : meetAll (bs :: ass) ≠ [] := List.length_pos_iff.mp (hpos.trans_le hbs)
      have hmeet : (meet as (meetAll (bs :: ass))).length + 1 = _ := length_meet has hne
      have hpos' := List.length_pos_iff.mpr has
      have hmeet' : (meetAll (as :: bs :: ass)).length = (meet as (meetAll (bs :: ass))).length := rfl
      intro cs hcs
      rcases List.mem_cons.mp hcs with rfl | hcs
      · omega
      · have hle := hlength cs hcs
        omega

theorem choices_lt_meetAll (h : ∀ as ∈ ass, Full as) (hmany : 2 ≤ ass.length)
    (hchoice : ∃ as ∈ ass, 2 ≤ as.length) :
    (ass.map fun as => as.formula.choices).sum < (formula (meetAll ass)).choices := by
  rcases ass with _ | ⟨as, _ | ⟨bs, ass⟩⟩
  · simp at hmany
  · simp at hmany
  · obtain ⟨has, hrest⟩ := List.forall_mem_cons.mp h
    have hlong : 2 ≤ as.length ∨ 2 ≤ (meetAll (bs :: ass)).length := by
      obtain ⟨cs, hcs, hlength⟩ := hchoice
      rcases List.mem_cons.mp hcs with rfl | hcs
      · exact .inl hlength
      · exact .inr (hlength.trans (length_le_meetAll (fun ds hds => (hrest ds hds).1) cs hcs))
    have hlt := choices_lt_meet has (full_meetAll (List.cons_ne_nil _ _) hrest) hlong
    have hle := choices_le_meetAll (bs :: ass)
    rw [List.map_cons, List.sum_cons]
    exact (Nat.add_le_add_left hle _).trans_lt hlt

theorem holds_meetAll (hne : ass ≠ []) (h : ∀ as ∈ ass, as.formula.Holds v) :
    (formula (meetAll ass)).Holds v := by
  induction ass with
  | nil => exact absurd rfl hne
  | cons as ass ih =>
    obtain ⟨has, hrest⟩ := List.forall_mem_cons.mp h
    cases ass with
    | nil =>
      rw [meetAll_single]
      exact has
    | cons bs ass => exact holds_meet has (ih (List.cons_ne_nil _ _) hrest)

/-- Alternatives of alternatives are alternatives. -/
theorem alike_flatten (ass : List (Alternatives α)) :
    (formula ass.flatten).Alike (.or (ass.map formula)) := by
  have hparts : Formula.Alike (.or (ass.map formula))
      (.or (ass.map fun as => Formula.join false (as.map .all))) :=
    Formula.Alike.parts false fun as _ => Formula.Alike.any _
  have hflatten := Formula.Alike.flatten false (ass.map fun as : Alternatives α => as.map Formula.all)
  rw [List.map_map, ← List.map_flatten] at hflatten
  exact (Formula.Alike.any _).trans (hflatten.symm.trans hparts.symm)

/-- Texts without alternatives are factors. -/
theorem alike_meetAll (hne : ass ≠ []) (h : ∀ as ∈ ass, as.length = 1) :
    (formula (meetAll ass)).Alike (.and (ass.map formula)) := by
  obtain ⟨bs, rfl⟩ : ∃ bs : Alternatives α, ass = bs.map fun b => [b] := by
    clear hne
    induction ass with
    | nil => exact ⟨[], rfl⟩
    | cons as ass ih =>
      obtain ⟨has, hrest⟩ := List.forall_mem_cons.mp h
      obtain ⟨b, rfl⟩ := List.length_eq_one_iff.mp has
      obtain ⟨bs, rfl⟩ := ih hrest
      exact ⟨b :: bs, rfl⟩
  -- Lists of one alternative each meet in one list, that of all their factors.
  have hmeet : ∀ bs : Alternatives α, bs ≠ [] → meetAll (bs.map fun b => [b]) = [bs.flatten] := by
    intro bs
    induction bs with
    | nil => exact fun hne => absurd rfl hne
    | cons b bs ih =>
      intro _
      cases bs with
      | nil => simp [meetAll_single]
      | cons b' bs =>
        have hrest := ih (List.cons_ne_nil _ _)
        rw [List.map_cons, meetAll, List.foldr_cons]
        rw [meetAll] at hrest
        rw [hrest]
        rfl
  have hparts : Formula.Alike (.and (bs.map Formula.all)) (.and (bs.map (Formula.join true))) :=
    Formula.Alike.parts true fun b _ => Formula.Alike.all b
  rw [hmeet bs (by simpa using hne), List.map_map]
  exact (Formula.Alike.all _).trans ((Formula.Alike.flatten true bs).symm.trans hparts.symm)

end Alternatives

/-! ## Texts and brackets -/

namespace Formula

open Alternatives (meetAll Full)

variable {α : Type} {v : α → Prop} {fs : List (Formula (Alternatives α))} {f : Formula (Alternatives α)}

/-- What texts become that are put together like the atoms of a formula, with brackets around them only
where the formula has a connective. -/
def spliced : Formula (Alternatives α) → Alternatives α :=
  fold id (fun ass => [[Alternatives.formula (meetAll ass)]])
    (fun ass => [[Alternatives.formula ass.flatten]])

/-- The formula with the texts in the places of its atoms. -/
def grafted : Formula (Alternatives α) → Formula α := fold Alternatives.formula all any

theorem spliced_and (fs : List (Formula (Alternatives α))) :
    (Formula.and fs).spliced = [[Alternatives.formula (meetAll (fs.map spliced))]] := by
  rw [spliced, fold, foldEach_eq_map]

theorem spliced_or (fs : List (Formula (Alternatives α))) :
    (Formula.or fs).spliced = [[Alternatives.formula (fs.map spliced).flatten]] := by
  rw [spliced, fold, foldEach_eq_map]

theorem grafted_and (fs : List (Formula (Alternatives α))) :
    (Formula.and fs).grafted = all (fs.map grafted) := by
  rw [grafted, fold, foldEach_eq_map]

theorem grafted_or (fs : List (Formula (Alternatives α))) :
    (Formula.or fs).grafted = any (fs.map grafted) := by
  rw [grafted, fold, foldEach_eq_map]

/-- A formula with something in it everywhere. -/
inductive Proper : Formula (Alternatives α) → Prop where
  | atom {as : Alternatives α} : Full as → Proper (.atom as)
  | and {fs : List (Formula (Alternatives α))} : fs ≠ [] → (∀ f ∈ fs, Proper f) → Proper (.and fs)
  | or {fs : List (Formula (Alternatives α))} : fs ≠ [] → (∀ f ∈ fs, Proper f) → Proper (.or fs)

/-- A text with an alternative is put together with another one by `AND`. -/
inductive Exposed : Formula (Alternatives α) → Prop where
  | here {fs : List (Formula (Alternatives α))} {as : Alternatives α} :
    .atom as ∈ fs → 2 ≤ fs.length → 2 ≤ as.length → Exposed (.and fs)
  | and {fs : List (Formula (Alternatives α))} {f : Formula (Alternatives α)} :
    f ∈ fs → Exposed f → Exposed (.and fs)
  | or {fs : List (Formula (Alternatives α))} {f : Formula (Alternatives α)} :
    f ∈ fs → Exposed f → Exposed (.or fs)

@[simp] theorem exposed_atom {as : Alternatives α} : ¬ Exposed (.atom as) := by
  rintro ⟨⟩

@[simp] theorem exposed_and : Exposed (.and fs) ↔
    (2 ≤ fs.length ∧ ∃ as : Alternatives α, .atom as ∈ fs ∧ 2 ≤ as.length) ∨ ∃ f ∈ fs, f.Exposed := by
  constructor
  · rintro (⟨has, hmany, hchoice⟩ | ⟨hf, hexposed⟩ | _)
    · exact .inl ⟨hmany, _, has, hchoice⟩
    · exact .inr ⟨_, hf, hexposed⟩
  · rintro (⟨hmany, as, has, hchoice⟩ | ⟨f, hf, hexposed⟩)
    · exact .here has hmany hchoice
    · exact .and hf hexposed

@[simp] theorem exposed_or : Exposed (.or fs) ↔ ∃ f ∈ fs, f.Exposed := by
  constructor
  · rintro (_ | _ | ⟨hf, hexposed⟩)
    exact ⟨_, hf, hexposed⟩
  · rintro ⟨f, hf, hexposed⟩
    exact .or hf hexposed

/-- Texts in brackets have no alternatives. -/
theorem exists_atom_of_spliced (h : 2 ≤ f.spliced.length) : ∃ as, f = .atom as ∧ f.spliced = as := by
  cases f with
  | atom as => exact ⟨as, rfl, rfl⟩
  | and fs => simp [spliced_and] at h
  | or fs => simp [spliced_or] at h

theorem Proper.full (h : f.Proper) : Full f.spliced := by
  induction h with
  | atom h => exact h
  | @and fs hne _ ih =>
    rw [spliced_and]
    refine Alternatives.full_single (Alternatives.size_pos (Alternatives.full_meetAll ?_ ?_))
    · simpa using hne
    · rw [List.forall_mem_map]
      exact ih
  | @or fs hne _ ih =>
    rw [spliced_or]
    refine Alternatives.full_single (Alternatives.size_pos ⟨?_, ?_⟩)
    · obtain ⟨f, fs, rfl⟩ := List.exists_cons_of_ne_nil hne
      have hfirst := (ih f List.mem_cons_self).1
      simp [hfirst]
    · intro a ha
      obtain ⟨as, has, ha⟩ := List.mem_flatten.mp ha
      obtain ⟨f, hf, rfl⟩ := List.mem_map.mp has
      exact (ih f hf).2 a ha

/-- Where everything that was meant is true, so is what became of it. -/
theorem holds_spliced_of_grafted (h : f.Proper) (hholds : f.grafted.Holds v) :
    f.spliced.formula.Holds v := by
  induction h with
  | atom _ => exact hholds
  | @and fs hne _ ih =>
    rw [grafted_and, holds_all, List.forall_mem_map] at hholds
    have hne' : fs.map spliced ≠ [] := by simpa using hne
    have hall : ∀ as ∈ fs.map spliced, as.formula.Holds v :=
      List.forall_mem_map.mpr fun f hf => ih f hf (hholds f hf)
    have hmeet := Alternatives.holds_meetAll hne' hall
    rw [spliced_and]
    exact hmeet
  | @or fs _ _ ih =>
    rw [grafted_or, holds_any] at hholds
    obtain ⟨g, hg, hholds⟩ := hholds
    obtain ⟨f, hf, rfl⟩ := List.mem_map.mp hg
    have hflatten := @Alike.holds_iff _ v _ _ (Alternatives.alike_flatten (fs.map spliced))
    rw [holds_or] at hflatten
    rw [spliced_or]
    exact hflatten.mpr ⟨_, List.mem_map_of_mem (List.mem_map_of_mem hf), ih f hf hholds⟩

/-! ## What texts become, in numbers -/

theorem size_spliced_and (fs : List (Formula (Alternatives α))) :
    (Formula.and fs).spliced.formula.size = (fs.map fun f => f.spliced.formula.size).sum := by
  have hmeet := Alternatives.size_meetAll (fs.map spliced)
  rw [List.map_map] at hmeet
  rw [spliced_and]
  exact hmeet

theorem choices_le_spliced_and (fs : List (Formula (Alternatives α))) :
    (fs.map fun f => f.spliced.formula.choices).sum ≤ (Formula.and fs).spliced.formula.choices := by
  have hmeet := Alternatives.choices_le_meetAll (fs.map spliced)
  rw [List.map_map] at hmeet
  rw [spliced_and]
  exact hmeet

theorem counts_spliced_or (fs : List (Formula (Alternatives α))) :
    (Formula.or fs).spliced.formula.size = (fs.map fun f => f.spliced.formula.size).sum
      ∧ (Formula.or fs).spliced.formula.choices = (fs.map fun f => f.spliced.formula.choices).sum
        + products (fs.map fun f => f.spliced.formula.size) := by
  obtain ⟨hsize, hchoices⟩ := (Alternatives.alike_flatten (fs.map spliced)).counts_eq
  have hsize' := size_join false ((fs.map spliced).map Alternatives.formula)
  have hchoices' := choices_join false ((fs.map spliced).map Alternatives.formula)
  simp only [List.map_map] at hsize hchoices hsize' hchoices'
  rw [spliced_or]
  exact ⟨hsize.trans hsize', hchoices.trans hchoices'⟩

theorem size_spliced (f : Formula (Alternatives α)) : f.spliced.formula.size = f.grafted.size := by
  induction f using Formula.induction with
  | atom as => rfl
  | and fs ih =>
    rw [size_spliced_and, grafted_and, size_all, List.map_map]
    exact congrArg List.sum (List.map_congr_left ih)
  | or fs ih =>
    rw [(counts_spliced_or fs).1, grafted_or, size_any, List.map_map]
    exact congrArg List.sum (List.map_congr_left ih)

theorem choices_grafted_or (fs : List (Formula (Alternatives α))) :
    (Formula.or fs).grafted.choices = (fs.map fun f => f.grafted.choices).sum
      + products (fs.map fun f => f.spliced.formula.size) := by
  have hsize : (fs.map fun f => f.spliced.formula.size) = fs.map fun f => f.grafted.size :=
    List.map_congr_left fun f _ => size_spliced f
  rw [hsize, grafted_or, choices_any, List.map_map, List.map_map]
  rfl

theorem choices_grafted_and (fs : List (Formula (Alternatives α))) :
    (Formula.and fs).grafted.choices = (fs.map fun f => f.grafted.choices).sum := by
  rw [grafted_and, choices_all, List.map_map]
  rfl

/-- No choice is taken away. -/
theorem choices_le_spliced (f : Formula (Alternatives α)) :
    f.grafted.choices ≤ f.spliced.formula.choices := by
  induction f using Formula.induction with
  | atom as => exact le_refl _
  | and fs ih =>
    rw [choices_grafted_and]
    exact (List.sum_le_sum ih).trans (choices_le_spliced_and fs)
  | or fs ih =>
    rw [choices_grafted_or, (counts_spliced_or fs).2]
    exact Nat.add_le_add_right (List.sum_le_sum ih) _

/-- An exposed text adds a choice. -/
theorem choices_lt_spliced (he : f.Exposed) (h : f.Proper) :
    f.grafted.choices < f.spliced.formula.choices := by
  induction he with
  | @here fs as hmem hmany hchoice =>
    cases h with
    | and hne hfs =>
    have hfull : ∀ bs ∈ fs.map spliced, Full bs := List.forall_mem_map.mpr fun f hf => (hfs f hf).full
    have hmeet := Alternatives.choices_lt_meetAll hfull (by simpa using hmany)
      ⟨as, List.mem_map_of_mem hmem, hchoice⟩
    rw [List.map_map] at hmeet
    rw [choices_grafted_and, spliced_and]
    exact (List.sum_le_sum fun f _ => choices_le_spliced f).trans_lt hmeet
  | @and fs f hmem _ ih =>
    cases h with
    | and hne hfs =>
    rw [choices_grafted_and]
    exact (List.sum_lt_sum _ _ (fun f _ => choices_le_spliced f) ⟨f, hmem, ih (hfs f hmem)⟩).trans_le
      (choices_le_spliced_and fs)
  | @or fs f hmem _ ih =>
    cases h with
    | or hne hfs =>
    rw [choices_grafted_or, (counts_spliced_or fs).2]
    exact Nat.add_lt_add_right
      (List.sum_lt_sum _ _ (fun f _ => choices_le_spliced f) ⟨f, hmem, ih (hfs f hmem)⟩) _

/-- If no text is exposed, texts become what was meant. -/
theorem alike_of_not_exposed (h : f.Proper) (he : ¬ f.Exposed) : f.spliced.formula.Alike f.grafted := by
  induction h with
  | atom _ => exact .refl _
  | @and fs hne hfs ih =>
    have hparts : Alike (.and (fs.map fun f => f.spliced.formula)) (.and (fs.map grafted)) :=
      Alike.parts true fun f hf => ih f hf fun hexposed => he (.and hf hexposed)
    have hgrafted : Alike (.and (fs.map fun f => f.spliced.formula)) (Formula.and fs).grafted := by
      rw [grafted_and]
      exact hparts.trans (Alike.all _).symm
    rw [spliced_and]
    refine Alike.trans ?_ hgrafted
    -- A clause alone is joined to nothing, whatever its alternatives are.
    rcases fs with _ | ⟨f, _ | ⟨g, fs⟩⟩
    · exact absurd rfl hne
    · rw [List.map_singleton, Alternatives.meetAll_single]
      exact (Alike.single true _).symm
    · have hone : ∀ as ∈ (f :: g :: fs).map spliced, as.length = 1 := by
        refine List.forall_mem_map.mpr fun f' hf' => ?_
        have hpos := List.length_pos_iff.mpr (hfs f' hf').full.1
        by_contra hlength
        obtain ⟨as, rfl, has⟩ := exists_atom_of_spliced (show 2 ≤ f'.spliced.length by omega)
        exact he (.here hf' (by simp) (by rw [← has]; omega))
      have hmeet := Alternatives.alike_meetAll (by simp) hone
      rw [List.map_map] at hmeet
      exact hmeet
  | @or fs hne hfs ih =>
    have hparts : Alike (.or (fs.map fun f => f.spliced.formula)) (.or (fs.map grafted)) :=
      Alike.parts false fun f hf => ih f hf fun hexposed => he (.or hf hexposed)
    have hflatten := Alternatives.alike_flatten (fs.map spliced)
    rw [List.map_map] at hflatten
    rw [spliced_or, grafted_or]
    exact hflatten.trans (hparts.trans (Alike.any _).symm)

/-- Texts become what was meant, up to brackets that make no difference, exactly if none is exposed. -/
theorem alike_iff_not_exposed (h : f.Proper) : f.spliced.formula.Alike f.grafted ↔ ¬ f.Exposed := by
  constructor
  -- Formulas that are alike leave the same number of choices.
  · intro halike he
    exact Nat.ne_of_gt (choices_lt_spliced he h) halike.counts_eq.2
  · exact alike_of_not_exposed h

end Formula

end EntityStore
