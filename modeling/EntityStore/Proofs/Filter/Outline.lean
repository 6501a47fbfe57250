import EntityStore.Proofs.Filter.Grouping

/-!
# Conditions in outline

A condition whose operands may be anything the database understands. The reader knows what puts operands
together and leaves each of them as the tokens it was written with. It goes over the tokens once and keeps
what stands in brackets together; then it cuts what it found into alternatives and operands, with `AND`
binding tighter than `OR`.

Not every `AND` puts operands together: one belongs to each range before it, and those in brackets or in a
case distinction belong to what is inside. A word behind a point is a name. What stands in round brackets
is a condition of its own if it can be read as one and is no query.

A text that is read goes on being read in the same way when it is followed by a connective or stands in
brackets (`Outlines.and`, `Outlines.or`, `Outlines.parens`).
-/

set_option autoImplicit false

namespace EntityStore

open Sql (Token Constant constant?)

open Alternatives (meet flatten_meet map_meet)

namespace Outline

/-! ## Tokens and what is in brackets -/

/-- What a token does where it stands. -/
inductive Role where
  | and
  | or
  /-- It needs an `AND` for itself. -/
  | between
  | separator
  | part
  deriving DecidableEq

def role : Token → Role
  | .word "and" => .and
  | .word "or" => .or
  | .word "between" => .between
  | .mark ',' | .mark ';' => .separator
  | _ => .part

/-- A token, or all tokens from an opening bracket to the closing one. -/
structure Item where
  tokens : List Token
  role : Role
  /-- The condition in brackets. -/
  inside : Option (Formula (List Token))

def Item.ofToken (t : Token) : Item := ⟨[t], Outline.role t, none⟩

/-- A point with the name behind it. -/
def Item.named (point name : Token) : Item := ⟨[point, name], .part, none⟩

def put (item : Item) (as : List (List (List Item))) : List (List (List Item)) :=
  as.modifyHead (·.modifyHead (item :: ·))

/-- How many ranges need an `AND` behind something with a role, if it may stand there. -/
def waiting : Nat → Role → Option Nat
  | 0, .and | 0, .or => some 0
  | ranges + 1, .and => some ranges
  | _ + 1, .or => none
  | ranges, .between => some (ranges + 1)
  | _, .separator => none
  | ranges, .part => some ranges

/-- Something in front of operands, while some ranges need an `AND`. -/
def add (ranges : Nat) (item : Item) (as : List (List (List Item))) : List (List (List Item)) :=
  match item.role, ranges with
  | .and, 0 => as.modifyHead ([] :: ·)
  | .or, _ => [[]] :: as
  | _, _ => put item as

/-- Items cut into alternatives and these into operands, while some ranges need an `AND`. -/
def cut : List Item → Nat → Option (List (List (List Item)))
  | [], 0 => some [[[]]]
  | [], _ + 1 => none
  | item :: items, ranges =>
    (waiting ranges item.role).bind fun more => (cut items more).map (add ranges item)

/-- What an operand says: the condition in its brackets if it is nothing else. -/
def operand : List Item → Formula (List Token)
  | [item] => item.inside.getD (.atom item.tokens)
  | items => .atom (items.flatMap (·.tokens))

/-- What some items say, if nothing is missing between two connectives. -/
def alternatives? (items : List Item) : Option (Alternatives (List Token)) :=
  (cut items 0).bind fun as =>
    if as.flatten.all (!·.isEmpty) then some (as.map (·.map operand)) else none

/-- Whether items are a query rather than a condition. -/
def isQuery : List Item → Bool
  | [] => false
  | item :: _ =>
    [[.word "select"], [.word "with"], [.word "values"], [.word "table"]].contains item.tokens

/-- Whether one token opens a bracket and the other one closes it. -/
def closes : Token → Token → Bool
  | .mark '(', .mark ')' | .mark '[', .mark ']' | .word "case", .word "end" => true
  | _, _ => false

/-- Items from one bracket to the other. -/
def Item.group (opening : Token) (items : List Item) (closing : Token) : Item where
  tokens := opening :: (items.flatMap (·.tokens) ++ [closing])
  role := .part
  inside :=
    if opening = .mark '(' ∧ isQuery items = false then (alternatives? items).map (·.formula)
    else none

/-- What a token is to the reader of brackets. -/
inductive Kind where
  | opening
  | closing
  | point
  | plain
  deriving DecidableEq

def kind : Token → Kind
  | .mark '(' | .mark '[' | .word "case" => .opening
  | .mark ')' | .mark ']' | .word "end" => .closing
  | .mark '.' => .point
  | _ => .plain

/-- A bracket that has not been closed, and what stands before it. -/
structure Opened where
  before : List Item
  bracket : Token

/-- Puts together what stands in brackets, while some brackets are open and some items have been found
behind the last of them. -/
def gather : List Token → List Opened → List Item → Option (List Item)
  | [], [], found => some found
  | [], _ :: _, _ => none
  | t :: ts, outer, found =>
    match kind t with
    | .opening => gather ts (⟨found, t⟩ :: outer) []
    | .closing =>
      match outer with
      | [] => none
      | opened :: outer =>
        if closes opened.bracket t then
          gather ts outer (opened.before ++ [.group opened.bracket found t])
        else none
    | .point =>
      match ts with
      | [] => none
      | name :: ts => gather ts outer (found ++ [.named t name])
    | .plain => gather ts outer (found ++ [.ofToken t])

/-- The alternatives of a text. -/
def read (cs : List Char) : Option (Alternatives (List Token)) :=
  ((Sql.tokens cs).bind (gather · [] [])).bind alternatives?

/-! ## Gathering -/

section Gather

variable {t : Token} {ts : List Token} {outer : List Opened} {found : List Item}

theorem gather_opening (h : kind t = .opening) :
    gather (t :: ts) outer found = gather ts (⟨found, t⟩ :: outer) [] := by
  rw [gather.eq_def]
  simp only [h]

theorem gather_closing {before : List Item} {bracket : Token} (h : kind t = .closing)
    (hc : closes bracket t = true) : gather (t :: ts) (⟨before, bracket⟩ :: outer) found
      = gather ts outer (before ++ [.group bracket found t]) := by
  rw [gather.eq_def]
  simp only [h, if_pos hc]

theorem gather_point {name : Token} (h : kind t = .point) :
    gather (t :: name :: ts) outer found = gather ts outer (found ++ [.named t name]) := by
  rw [gather.eq_def]
  simp only [h]

theorem gather_plain (h : kind t = .plain) :
    gather (t :: ts) outer found = gather ts outer (found ++ [.ofToken t]) := by
  rw [gather.eq_def]
  simp only [h]

/-- How some items are gathered from tokens, from the state of the reader before each of them. -/
inductive Gathers (items : List Item) : List Token → List Opened → List Item → Prop where
  | done : Gathers items [] [] items
  | opening {t : Token} {ts : List Token} {outer : List Opened} {found : List Item} :
    kind t = .opening → Gathers items ts (⟨found, t⟩ :: outer) [] →
      Gathers items (t :: ts) outer found
  | closing {t bracket : Token} {ts : List Token} {outer : List Opened} {before found : List Item} :
    kind t = .closing → closes bracket t = true →
      Gathers items ts outer (before ++ [.group bracket found t]) →
      Gathers items (t :: ts) (⟨before, bracket⟩ :: outer) found
  | point {t name : Token} {ts : List Token} {outer : List Opened} {found : List Item} :
    kind t = .point → Gathers items ts outer (found ++ [.named t name]) →
      Gathers items (t :: name :: ts) outer found
  | plain {t : Token} {ts : List Token} {outer : List Opened} {found : List Item} :
    kind t = .plain → Gathers items ts outer (found ++ [.ofToken t]) →
      Gathers items (t :: ts) outer found

theorem gathers_of_gather {items : List Item} (h : gather ts outer found = some items) :
    Gathers items ts outer found := by
  -- One case for each branch of `gather`; those that refuse leave nothing to prove.
  induction ts, outer, found using gather.induct with
  | case1 found =>
    cases h
    exact .done
  | case2 opened outer found => cases h
  | case3 t ts outer found hkind ih =>
    rw [gather_opening hkind] at h
    exact .opening hkind (ih h)
  | case4 t ts found hkind =>
    rw [gather.eq_def] at h
    simp only [hkind] at h
    cases h
  | case5 t ts found hkind opened outer hcloses ih =>
    obtain ⟨before, bracket⟩ := opened
    rw [gather_closing hkind hcloses] at h
    exact .closing hkind hcloses (ih h)
  | case6 t ts found hkind opened outer hcloses =>
    rw [gather.eq_def] at h
    simp only [hkind, if_neg hcloses] at h
    cases h
  | case7 t outer found hkind =>
    rw [gather.eq_def] at h
    simp only [hkind] at h
    cases h
  | case8 t outer found hkind name ts ih =>
    rw [gather_point hkind] at h
    exact .point hkind (ih h)
  | case9 t ts outer found hkind ih =>
    rw [gather_plain hkind] at h
    exact .plain hkind (ih h)

end Gather

/-! ## Cutting -/

variable {items items' : List Item} {ranges : Nat}

theorem cut_cons_eq_some_iff {item : Item} {as : List (List (List Item))} :
    cut (item :: items) ranges = some as ↔
      ∃ more bs, waiting ranges item.role = some more ∧ cut items more = some bs
        ∧ add ranges item bs = as := by
  simp only [cut, Option.bind_eq_some_iff, Option.map_eq_some_iff, exists_and_left]

/-- There is a first operand, even if nothing belongs to it. -/
theorem exists_of_cut {as : List (List (List Item))} (h : cut items ranges = some as) :
    ∃ first operands alternatives, as = (first :: operands) :: alternatives := by
  induction items generalizing ranges as with
  | nil =>
    cases ranges with
    | zero => exact ⟨[], [], [], (Option.some.inj h).symm⟩
    | succ ranges => cases h
  | cons item items ih =>
    obtain ⟨more, bs, -, hbs, rfl⟩ := cut_cons_eq_some_iff.mp h
    obtain ⟨first, operands, alternatives, rfl⟩ := ih hbs
    unfold add
    split
    · exact ⟨[], first :: operands, alternatives, rfl⟩
    · exact ⟨[], [], _, rfl⟩
    · exact ⟨item :: first, operands, alternatives, rfl⟩

theorem add_append {item : Item} {as : List (List (List Item))} (has : as ≠ [])
    (bs : List (List (List Item))) : add ranges item (as ++ bs) = add ranges item as ++ bs := by
  obtain ⟨a, as, rfl⟩ := List.exists_cons_of_ne_nil has
  unfold add
  split <;> rfl

theorem add_meet {item : Item} {first : List Item} (operands : List (List Item))
    (alternatives bs : List (List (List Item))) :
    add ranges item (meet ((first :: operands) :: alternatives) bs)
      = meet (add ranges item ((first :: operands) :: alternatives)) bs := by
  unfold add
  split
  all_goals cases alternatives <;> cases bs <;> rfl

/-- An `OR` that belongs to no operand ends an alternative. -/
theorem cut_or {as : List (List (List Item))} {item : Item} (hrole : item.role = .or)
    (h : cut items ranges = some as) :
    cut (items ++ item :: items') ranges = (cut items' 0).map (as ++ ·) := by
  induction items generalizing ranges as with
  | nil =>
    cases ranges with
    | succ ranges => cases h
    | zero =>
      cases h
      simp only [List.nil_append, cut, hrole, waiting, Option.bind_some]
      congr 1
      funext bs
      simp [add, hrole]
  | cons first items ih =>
    obtain ⟨more, bs, hmore, hbs, rfl⟩ := cut_cons_eq_some_iff.mp h
    have hne : bs ≠ [] := by
      obtain ⟨_, _, _, rfl⟩ := exists_of_cut hbs
      exact List.cons_ne_nil _ _
    rw [List.cons_append, cut, hmore, Option.bind_some, ih hbs, Option.map_map]
    congr 1
    funext cs
    exact add_append hne cs

/-- An `AND` that belongs to no operand ends an operand. -/
theorem cut_and {as : List (List (List Item))} {item : Item} (hrole : item.role = .and)
    (h : cut items ranges = some as) :
    cut (items ++ item :: items') ranges = (cut items' 0).map (meet as) := by
  induction items generalizing ranges as with
  | nil =>
    cases ranges with
    | succ ranges => cases h
    | zero =>
      cases h
      simp only [List.nil_append, cut, hrole, waiting, Option.bind_some]
      refine Option.map_congr fun bs hbs => ?_
      obtain ⟨first, operands, alternatives, rfl⟩ := exists_of_cut hbs
      simp [add, hrole, meet]
  | cons first items ih =>
    obtain ⟨more, bs, hmore, hbs, rfl⟩ := cut_cons_eq_some_iff.mp h
    obtain ⟨_, operands, alternatives, rfl⟩ := exists_of_cut hbs
    rw [List.cons_append, cut, hmore, Option.bind_some, ih hbs, Option.map_map]
    congr 1
    funext cs
    exact add_meet operands alternatives cs

/-! ## What some items say -/

theorem alternatives?_eq_some_iff {as : Alternatives (List Token)} : alternatives? items = some as ↔
    ∃ bs, cut items 0 = some bs ∧ (∀ ops ∈ bs.flatten, ops ≠ []) ∧ bs.map (·.map operand) = as := by
  have hiff : ∀ bs : List (List (List Item)), bs.flatten.all (!·.isEmpty) = true ↔
      ∀ ops ∈ bs.flatten, ops ≠ [] := by
    intro bs
    simp only [List.all_eq_true, Bool.not_eq_true', List.isEmpty_eq_false_iff]
  unfold alternatives?
  constructor
  · intro h
    obtain ⟨bs, hbs, h⟩ := Option.bind_eq_some_iff.mp h
    split at h
    · next hall => exact ⟨bs, hbs, (hiff bs).mp hall, Option.some.inj h⟩
    · cases h
  · rintro ⟨bs, hbs, hall, rfl⟩
    rw [hbs, Option.bind_some, if_pos ((hiff bs).mpr hall)]

theorem ne_nil_of_alternatives? {as : Alternatives (List Token)} (h : alternatives? items = some as) :
    as ≠ [] ∧ items ≠ [] := by
  obtain ⟨bs, hbs, hall, rfl⟩ := alternatives?_eq_some_iff.mp h
  obtain ⟨first, operands, alternatives, rfl⟩ := exists_of_cut hbs
  refine ⟨by simp, ?_⟩
  rintro rfl
  cases hbs
  exact hall [] (by simp) rfl

variable {as bs : Alternatives (List Token)}

theorem alternatives?_or {item : Item} (hrole : item.role = .or)
    (ha : alternatives? items = some as) (hb : alternatives? items' = some bs) :
    alternatives? (items ++ item :: items') = some (as ++ bs) := by
  obtain ⟨as', hcut, hall, rfl⟩ := alternatives?_eq_some_iff.mp ha
  obtain ⟨bs', hcut', hall', rfl⟩ := alternatives?_eq_some_iff.mp hb
  refine alternatives?_eq_some_iff.mpr ⟨as' ++ bs', ?_, ?_, List.map_append⟩
  · rw [cut_or hrole hcut, hcut']
    rfl
  · intro ops hmem
    rw [List.flatten_append] at hmem
    exact (List.mem_append.mp hmem).elim (hall ops) (hall' ops)

theorem alternatives?_and {item : Item} (hrole : item.role = .and)
    (ha : alternatives? items = some as) (hb : alternatives? items' = some bs) :
    alternatives? (items ++ item :: items') = some (meet as bs) := by
  obtain ⟨as', hcut, hall, rfl⟩ := alternatives?_eq_some_iff.mp ha
  obtain ⟨bs', hcut', hall', rfl⟩ := alternatives?_eq_some_iff.mp hb
  refine alternatives?_eq_some_iff.mpr ⟨meet as' bs', ?_, ?_, map_meet _ _ _⟩
  · rw [cut_and hrole hcut, hcut']
    rfl
  · intro ops hmem
    rw [flatten_meet] at hmem
    exact (List.mem_append.mp hmem).elim (hall ops) (hall' ops)

/-! ## Nothing is empty -/

/-- The condition in the brackets of an item says something. -/
def Item.Sized (item : Item) : Prop := ∀ f ∈ item.inside, 0 < f.size

theorem size_operand {ops : List Item} (h : ∀ item ∈ ops, item.Sized) : 0 < (operand ops).size := by
  rcases ops with _ | ⟨item, _ | ⟨item', ops⟩⟩
  · exact Nat.one_pos
  · rw [operand]
    cases hinside : item.inside with
    | none => exact Nat.one_pos
    | some f => exact h item List.mem_cons_self f hinside
  · exact Nat.one_pos

/-- Operands are made of the items, and there is one in each alternative. -/
theorem subset_of_cut {as : List (List (List Item))} (h : cut items ranges = some as) :
    ∀ a ∈ as, a ≠ [] ∧ a.flatten ⊆ items := by
  induction items generalizing ranges as with
  | nil =>
    cases ranges with
    | zero =>
      cases h
      simp
    | succ ranges => cases h
  | cons item items ih =>
    obtain ⟨more, bs, -, hbs, rfl⟩ := cut_cons_eq_some_iff.mp h
    have hrest := ih hbs
    obtain ⟨first, operands, alternatives, rfl⟩ := exists_of_cut hbs
    obtain ⟨⟨-, hfirst⟩, halternatives⟩ := List.forall_mem_cons.mp hrest
    have hfirst : (first :: operands).flatten ⊆ item :: items := List.subset_cons_of_subset _ hfirst
    have hlater : ∀ a ∈ alternatives, a ≠ [] ∧ a.flatten ⊆ item :: items := fun a ha =>
      ⟨(halternatives a ha).1, List.subset_cons_of_subset _ (halternatives a ha).2⟩
    unfold add
    split
    · exact List.forall_mem_cons.mpr ⟨⟨List.cons_ne_nil _ _, hfirst⟩, hlater⟩
    · exact List.forall_mem_cons.mpr
        ⟨by simp, List.forall_mem_cons.mpr ⟨⟨List.cons_ne_nil _ _, hfirst⟩, hlater⟩⟩
    · exact List.forall_mem_cons.mpr
        ⟨⟨List.cons_ne_nil _ _, List.cons_subset.mpr ⟨List.mem_cons_self, hfirst⟩⟩, hlater⟩

theorem full_of_alternatives? (hitems : ∀ item ∈ items, item.Sized)
    (h : alternatives? items = some as) : as.Full := by
  obtain ⟨bs, hbs, -, rfl⟩ := alternatives?_eq_some_iff.mp h
  refine ⟨(ne_nil_of_alternatives? h).1, List.forall_mem_map.mpr fun b hb => ?_⟩
  obtain ⟨hne, hsubset⟩ := subset_of_cut hbs b hb
  obtain ⟨ops, b, rfl⟩ := List.exists_cons_of_ne_nil hne
  have hpos := size_operand fun item hitem => hitems item (hsubset (List.mem_append_left _ hitem))
  simp only [Alternatives.weight, List.map_cons, List.sum_cons]
  omega

theorem sized_group (opening closing : Token) (hitems : ∀ item ∈ items, item.Sized) :
    (Item.group opening items closing).Sized := by
  intro f hf
  unfold Item.group at hf
  dsimp only at hf
  split at hf
  · obtain ⟨bs, hbs, rfl⟩ := Option.map_eq_some_iff.mp hf
    exact Alternatives.size_pos (full_of_alternatives? hitems hbs)
  · cases hf

/-- What is gathered says something wherever it is in brackets. -/
theorem Gathers.sized {ts : List Token} {outer : List Opened} {found : List Item}
    (h : Gathers items ts outer found) (houter : ∀ opened ∈ outer, ∀ item ∈ opened.before, item.Sized)
    (hfound : ∀ item ∈ found, item.Sized) : ∀ item ∈ items, item.Sized := by
  have hput : ∀ {found : List Item} {item : Item}, (∀ item ∈ found, item.Sized) → item.Sized →
      ∀ i ∈ found ++ [item], i.Sized :=
    fun hfound hitem => List.forall_mem_append.mpr ⟨hfound, List.forall_mem_singleton.mpr hitem⟩
  have hnone : ∀ {item : Item}, item.inside = none → item.Sized := by
    intro item hnone f hf
    rw [hnone] at hf
    cases hf
  induction h with
  | done => exact hfound
  | opening _ _ ih => exact ih (List.forall_mem_cons.mpr ⟨hfound, houter⟩) (by simp)
  | closing _ _ _ ih =>
    obtain ⟨hbefore, houter⟩ := List.forall_mem_cons.mp houter
    exact ih houter (hput hbefore (sized_group _ _ hfound))
  | point _ _ ih | plain _ _ ih => exact ih houter (hput hfound (hnone rfl))

/-! ## Brackets -/

/-- The levels of brackets `outer`, with `found` at the innermost, when all of it stands behind `pre`
within the levels `enclosing`. -/
def within (pre : List Item) (enclosing : List Opened) : List Opened → List Item →
    List Opened × List Item
  | [], found => (enclosing, pre ++ found)
  | opened :: outer, found =>
    (⟨(within pre enclosing outer opened.before).2, opened.bracket⟩
      :: (within pre enclosing outer opened.before).1, found)

variable {pre : List Item} {enclosing : List Opened}

theorem within_append (outer : List Opened) (found more : List Item) :
    within pre enclosing outer (found ++ more)
      = ((within pre enclosing outer found).1, (within pre enclosing outer found).2 ++ more) := by
  cases outer <;> simp [within]

section Within

variable {ts : List Token} {outer : List Opened} {found : List Item}

/-- What is closed in itself is gathered in the same way wherever it stands. -/
theorem Gathers.gather_within (h : Gathers items ts outer found) (rest : List Token) :
    gather (ts ++ rest) (within pre enclosing outer found).1 (within pre enclosing outer found).2
      = gather rest enclosing (pre ++ items) := by
  induction h with
  | done => rfl
  | opening hkind _ ih =>
    rw [List.cons_append, gather_opening hkind]
    exact ih
  -- Its opening bracket stands behind `pre` as well.
  | closing hkind hcloses _ ih =>
    rw [within_append] at ih
    rw [List.cons_append, within]
    dsimp only
    rw [gather_closing hkind hcloses]
    exact ih
  | point hkind _ ih =>
    rw [within_append] at ih
    rw [List.cons_append, List.cons_append, gather_point hkind]
    exact ih
  | plain hkind _ ih =>
    rw [within_append] at ih
    rw [List.cons_append, gather_plain hkind]
    exact ih

/-- So nothing in front of it makes a difference, and nothing in it makes a difference for the rest. -/
theorem gather_append {items : List Item} (h : gather ts [] [] = some items) (rest : List Token)
    (outer : List Opened) (found : List Item) :
    gather (ts ++ rest) outer found = gather rest outer (found ++ items) := by
  have hwithin := @Gathers.gather_within _ found outer ts [] [] (gathers_of_gather h) rest
  rw [within, List.append_nil] at hwithin
  exact hwithin

end Within

/-! ## Conditions put together -/

/-- Tokens that are a condition with some alternatives. -/
def Outlines (ts : List Token) (as : Alternatives (List Token)) : Prop :=
  ∃ items, gather ts [] [] = some items ∧ isQuery items = false ∧ alternatives? items = some as

theorem isQuery_append (hne : items ≠ []) (items' : List Item) :
    isQuery (items ++ items') = isQuery items := by
  obtain ⟨item, items, rfl⟩ := List.exists_cons_of_ne_nil hne
  rfl

/-- What some items and one that stands alone between them say. -/
theorem gather_between {ts us : List Token} {t : Token} (hkind : kind t = .plain)
    (h : gather ts [] [] = some items) (h' : gather us [] [] = some items') :
    gather (ts ++ t :: us) [] [] = some (items ++ .ofToken t :: items') := by
  have hrest := gather_append h' [] [] (items ++ [.ofToken t])
  rw [List.append_nil] at hrest
  rw [gather_append h, List.nil_append, gather_plain hkind, hrest, List.append_assoc]
  rfl

namespace Outlines

variable {ts us : List Token}

theorem full (h : Outlines ts as) : as.Full := by
  obtain ⟨items, hitems, -, has⟩ := h
  exact full_of_alternatives? ((gathers_of_gather hitems).sized (by simp) (by simp)) has

theorem and (h : Outlines ts as) (h' : Outlines us bs) :
    Outlines (ts ++ .word "and" :: us) (meet as bs) := by
  obtain ⟨items, hitems, hquery, has⟩ := h
  obtain ⟨items', hitems', -, hbs⟩ := h'
  refine ⟨_, gather_between (by decide) hitems hitems', ?_, alternatives?_and rfl has hbs⟩
  rw [isQuery_append (ne_nil_of_alternatives? has).2, hquery]

theorem or (h : Outlines ts as) (h' : Outlines us bs) :
    Outlines (ts ++ .word "or" :: us) (as ++ bs) := by
  obtain ⟨items, hitems, hquery, has⟩ := h
  obtain ⟨items', hitems', -, hbs⟩ := h'
  refine ⟨_, gather_between (by decide) hitems hitems', ?_, alternatives?_or rfl has hbs⟩
  rw [isQuery_append (ne_nil_of_alternatives? has).2, hquery]

/-- In brackets, alternatives are a single operand. -/
theorem parens (h : Outlines ts as) : Outlines (.mark '(' :: (ts ++ [.mark ')'])) [[as.formula]] := by
  obtain ⟨items, hitems, hquery, has⟩ := h
  refine ⟨[.group (.mark '(') items (.mark ')')], ?_, by simp [isQuery, Item.group], ?_⟩
  · rw [gather_opening (by decide), gather_append hitems, gather_closing (by decide) (by decide)]
    rfl
  · have hinside : (Item.group (.mark '(') items (.mark ')')).inside = some as.formula := by
      rw [Item.group, if_pos ⟨rfl, hquery⟩, has]
      rfl
    refine alternatives?_eq_some_iff.mpr ⟨[[[.group (.mark '(') items (.mark ')')]]], rfl, by simp, ?_⟩
    simp only [List.map_cons, List.map_nil, operand, hinside, Option.getD_some]

end Outlines

/-! ## Tokens of a single operand -/

def putAll (items : List Item) (as : List (List (List Item))) : List (List (List Item)) :=
  as.modifyHead (·.modifyHead (items ++ ·))

/-- Tokens that belong to the operand they stand in, whatever it is, and are these items of it. -/
structure Runs (us : List Token) (items : List Item) : Prop where
  gathered : ∀ rest outer found, gather (us ++ rest) outer found = gather rest outer (found ++ items)
  cut : ∀ rest ranges, cut (items ++ rest) ranges = (cut rest ranges).map (putAll items)

namespace Runs

variable {us vs : List Token}

theorem nil : Runs [] [] where
  gathered rest outer found := by rw [List.nil_append, List.append_nil]
  cut rest ranges := by
    rw [List.nil_append]
    cases h : Outline.cut rest ranges with
    | none => rfl
    | some as =>
      obtain ⟨first, operands, alternatives, rfl⟩ := exists_of_cut h
      rfl

theorem append (h : Runs us items) (h' : Runs vs items') : Runs (us ++ vs) (items ++ items') where
  gathered rest outer found := by
    rw [List.append_assoc, h.gathered, h'.gathered, List.append_assoc]
  cut rest ranges := by
    rw [List.append_assoc, h.cut, h'.cut, Option.map_map]
    refine Option.map_congr fun as has => ?_
    obtain ⟨first, operands, alternatives, rfl⟩ := exists_of_cut has
    simp [putAll]

/-- An item that puts nothing together. -/
theorem item {item : Item} (hrole : item.role = .part)
    (h : ∀ rest outer found, gather (us ++ rest) outer found = gather rest outer (found ++ [item])) :
    Runs us [item] where
  gathered := h
  cut rest ranges := by
    have hwaiting : waiting ranges item.role = some ranges := by
      rw [hrole]
      cases ranges <;> rfl
    rw [List.singleton_append, Outline.cut, hwaiting, Option.bind_some]
    congr 1
    funext as
    simp [add, hrole, put, putAll]

theorem token {t : Token} (hkind : kind t = .plain) (hrole : role t = .part) :
    Runs [t] [.ofToken t] :=
  item hrole fun _ _ _ => gather_plain hkind

theorem brackets (h : ∀ t ∈ us, kind t = .plain) : ∃ group,
    Runs (.mark '(' :: (us ++ [.mark ')'])) [group] := by
  have hinside : ∀ (us : List Token), (∀ t ∈ us, kind t = .plain) → ∀ rest outer found,
      gather (us ++ rest) outer found = gather rest outer (found ++ us.map .ofToken) := by
    intro us
    induction us with
    | nil => simp
    | cons t us ih =>
      intro h rest outer found
      obtain ⟨ht, hus⟩ := List.forall_mem_cons.mp h
      rw [List.cons_append, gather_plain ht, ih hus, List.append_assoc]
      rfl
  refine ⟨.group (.mark '(') (us.map .ofToken) (.mark ')'), item rfl fun rest outer found => ?_⟩
  rw [List.cons_append, List.append_assoc, gather_opening (by decide), hinside us h,
    List.singleton_append, gather_closing (by decide) rfl]
  rfl

/-- A range keeps its `AND`. -/
theorem range (h : Runs us items) (h' : Runs vs items') :
    Runs (.word "between" :: (us ++ .word "and" :: vs))
      (.ofToken (.word "between") :: (items ++ .ofToken (.word "and") :: items')) where
  gathered rest outer found := by
    simp only [List.cons_append, List.append_assoc]
    rw [gather_plain (by decide), h.gathered, gather_plain (by decide), h'.gathered]
    simp
  -- One more range waits for an `AND`, and the next one is its own.
  cut rest ranges := by
    have hbetween : waiting ranges .between = some (ranges + 1) := by cases ranges <;> rfl
    simp only [List.cons_append, List.append_assoc]
    rw [Outline.cut]
    simp only [Item.ofToken, role, hbetween, Option.bind_some]
    rw [h.cut, Outline.cut]
    simp only [waiting, Option.bind_some]
    rw [h'.cut, Option.map_map, Option.map_map, Option.map_map]
    refine Option.map_congr fun as has => ?_
    obtain ⟨first, operands, alternatives, rfl⟩ := exists_of_cut has
    simp [putAll, add, put]

/-- Tokens that are all of one operand are a condition without connectives. -/
theorem outlines (h : Runs us items) (hne : items ≠ []) (hquery : isQuery items = false) :
    Outlines us [[operand items]] := by
  have hgather := h.gathered [] [] []
  have hcut := h.cut [] 0
  rw [List.append_nil] at hgather hcut
  refine ⟨items, hgather, hquery, alternatives?_eq_some_iff.mpr ⟨[[items]], ?_, by simpa using hne, rfl⟩⟩
  rw [hcut]
  simp [Outline.cut, putAll]

end Runs

/-! ## Atoms -/

/-- A token that only belongs to the operand it stands in. -/
def Inert (t : Token) : Prop := kind t = .plain ∧ role t = .part

theorem inert_of_constant? {ts rest : List Token} {c : Constant} (h : constant? ts = some (c, rest)) :
    ∃ us, ts = us ++ rest ∧ ∀ t ∈ us, Inert t := by
  unfold constant? at h
  split at h <;> cases h
  case h_1 => exact ⟨[.word "null"], rfl, by simp [Inert, kind, role]⟩
  case h_2 => exact ⟨[.word "true"], rfl, by simp [Inert, kind, role]⟩
  case h_3 => exact ⟨[.word "false"], rfl, by simp [Inert, kind, role]⟩
  case h_4 s =>
    exact ⟨[.word "timestamp", .word "with", .word "time", .word "zone", .constant s], rfl,
      by simp [Inert, kind, role]⟩
  case h_5 s => exact ⟨[.constant s], rfl, by simp [Inert, kind, role]⟩
  case h_6 whole fraction => exact ⟨[.numeral whole fraction], rfl, by simp [Inert, kind, role]⟩
  case h_7 whole fraction =>
    exact ⟨[.operator "-", .numeral whole fraction], rfl, by simp [Inert, kind, role]⟩

/-- Tokens that put nothing together belong to one operand. -/
theorem Runs.tokens {us : List Token} (h : ∀ t ∈ us, Inert t) :
    Runs us (us.map .ofToken) := by
  induction us with
  | nil => exact .nil
  | cons t us ih =>
    obtain ⟨⟨hkind, hrole⟩, hus⟩ := List.forall_mem_cons.mp h
    exact (Runs.token hkind hrole).append (ih hus)

theorem runs_of_constant? {ts rest : List Token} {c : Constant} (h : constant? ts = some (c, rest)) :
    ∃ us items, ts = us ++ rest ∧ Runs us items := by
  obtain ⟨us, hts, hinert⟩ := inert_of_constant? h
  exact ⟨us, _, hts, .tokens hinert⟩

theorem plain_of_members? {ts rest : List Token} {cs : List Constant}
    (h : members? ts = some (cs, rest)) :
    ∃ us, ts = us ++ .mark ')' :: rest ∧ ∀ t ∈ us, kind t = .plain := by
  induction ts using members?.induct generalizing cs with
  | case1 ts c more hconstant hlt ih =>
    rw [members?, hconstant] at h
    simp only [if_pos hlt] at h
    obtain ⟨⟨ds, rest'⟩, hds, heq⟩ := Option.map_eq_some_iff.mp h
    cases heq
    obtain ⟨us, rfl, hus⟩ := ih hds
    obtain ⟨vs, rfl, hvs⟩ := inert_of_constant? hconstant
    refine ⟨vs ++ .mark ',' :: us, by simp, ?_⟩
    intro t ht
    rcases List.mem_append.mp ht with ht | ht
    · exact (hvs t ht).1
    · rcases List.mem_cons.mp ht with rfl | ht
      · rfl
      · exact hus t ht
  | case2 ts c more hconstant hlt =>
    rw [members?, hconstant] at h
    simp only [if_neg hlt] at h
    cases h
  | case3 ts c more hconstant =>
    rw [members?, hconstant] at h
    cases h
    obtain ⟨vs, rfl, hvs⟩ := inert_of_constant? hconstant
    exact ⟨vs, rfl, fun t ht => (hvs t ht).1⟩
  | case4 ts hcomma hclose =>
    rw [members?] at h
    split at h
    · next c more hc => exact absurd hc (hcomma c more)
    · next c more hc => exact absurd hc (hclose c more)
    · cases h

theorem runs_before_constant? {front ts rest : List Token} {c : Constant}
    (hfront : ∀ t ∈ front, Inert t) (h : constant? ts = some (c, rest)) :
    ∃ us items, front ++ ts = us ++ rest ∧ Runs us items := by
  obtain ⟨us, items, rfl, hruns⟩ := runs_of_constant? h
  exact ⟨front ++ us, _, (List.append_assoc _ _ _).symm, (Runs.tokens hfront).append hruns⟩

theorem runs_before_members? {front ts rest : List Token} {cs : List Constant}
    (hfront : ∀ t ∈ front, Inert t) (h : members? ts = some (cs, rest)) :
    ∃ us items, front ++ .mark '(' :: ts = us ++ rest ∧ Runs us items := by
  obtain ⟨us, rfl, hplain⟩ := plain_of_members? h
  obtain ⟨group, hgroup⟩ := Runs.brackets hplain
  exact ⟨front ++ (.mark '(' :: (us ++ [.mark ')'])), _, by simp, (Runs.tokens hfront).append hgroup⟩

theorem runs_of_columnAtom? {column : String} {ts rest : List Token} {a : Atom}
    (h : columnAtom? column ts = some (a, rest)) : ∃ us items, ts = us ++ rest ∧ Runs us items := by
  unfold columnAtom? at h
  split at h
  case h_1 =>
    cases h
    exact ⟨[.word "is", .word "null"], _, rfl, .tokens (by simp [Inert, kind, role])⟩
  case h_2 =>
    cases h
    exact ⟨[.word "is", .word "not", .word "null"], _, rfl, .tokens (by simp [Inert, kind, role])⟩
  -- A range is the only atom with a connective of its own.
  case h_3 ts =>
    split at h
    case h_2 => cases h
    case h_1 low ts' hlow =>
      obtain ⟨⟨high, rest'⟩, hhigh, heq⟩ := Option.map_eq_some_iff.mp h
      cases heq
      obtain ⟨us, items, rfl, hruns⟩ := runs_of_constant? hlow
      obtain ⟨vs, items', rfl, hruns'⟩ := runs_of_constant? hhigh
      exact ⟨_, _, by simp, hruns.range hruns'⟩
  -- A set is a bracket behind one word or two.
  case h_4 ts =>
    obtain ⟨⟨cs, rest'⟩, hcs, heq⟩ := Option.map_eq_some_iff.mp h
    cases heq
    exact @runs_before_members? [.word "in"] _ _ _ (by simp [Inert, kind, role]) hcs
  case h_5 ts =>
    obtain ⟨⟨cs, rest'⟩, hcs, heq⟩ := Option.map_eq_some_iff.mp h
    cases heq
    exact @runs_before_members? [.word "not", .word "in"] _ _ _ (by simp [Inert, kind, role]) hcs
  -- All others have one constant at their end.
  case h_6 ts =>
    obtain ⟨⟨c, rest'⟩, hc, heq⟩ := Option.map_eq_some_iff.mp h
    cases heq
    exact @runs_before_constant? [.word "like"] _ _ _ (by simp [Inert, kind, role]) hc
  case h_7 ts =>
    obtain ⟨⟨c, rest'⟩, hc, heq⟩ := Option.map_eq_some_iff.mp h
    cases heq
    exact @runs_before_constant? [.word "not", .word "like"] _ _ _ (by simp [Inert, kind, role]) hc
  case h_8 op ts =>
    split at h
    case h_2 => cases h
    case h_1 comparison hop =>
      obtain ⟨⟨c, rest'⟩, hc, heq⟩ := Option.map_eq_some_iff.mp h
      cases heq
      exact @runs_before_constant? [.operator op] _ _ _ (by simp [Inert, kind, role]) hc
  case h_9 => cases h

/-- An atom is a single operand. -/
theorem outlines_of_atom? {ts : List Token} {a : Atom} (h : atom? ts = some (a, [])) :
    ∃ f, Outlines ts [[f]] := by
  unfold atom? at h
  split at h
  case h_1 =>
    cases h
    exact ⟨_, Runs.outlines (.token rfl rfl) (by simp) rfl⟩
  case h_2 =>
    cases h
    exact ⟨_, Runs.outlines (.token rfl rfl) (by simp) rfl⟩
  case h_3 column ts =>
    obtain ⟨us, items, rfl, hruns⟩ := runs_of_columnAtom? h
    have hcolumn : Runs [.identifier column] [.ofToken (.identifier column)] := .token rfl rfl
    rw [List.append_nil]
    exact ⟨_, (hcolumn.append hruns).outlines (by simp) rfl⟩
  case h_4 => cases h

end Outline

end EntityStore
