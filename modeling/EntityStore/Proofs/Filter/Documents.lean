import EntityStore.Filter.Predicate
import Mathlib.Data.List.Forall2

/-!
# Which documents state a predicate

A host may send any document at all as a predicate. Which of them are accepted is a small grammar, and
which clauses come of an accepted one can be read off its entries, one by one.

Some parts of a predicate are trusted: texts, templates, patterns, and operators with a token of their
own. A document that nobody trusts can bring them in, so it matters where they come from. A place in a
predicate is a path through the branches of its choices, and the same path leads through the document;
what is at the end of the one is stated by what is at the end of the other (`reads_exactly_the_grammar`).
-/

set_option autoImplicit false

namespace EntityStore

/-! ## The grammar -/

/-- Whether a document states a condition on an attribute. What is wrong can only be the operand of a
range or of a pattern. -/
structure Document.IsCondition (d : Document) : Prop where
  range : ∀ operand, d = .object [("between", operand)] → ∃ low high, operand = .list [low, high]
  pattern : ∀ operand, d = .object [("regexp", operand)] → ∃ source, operand = .text source

mutual

/-- Whether a document states a predicate. -/
inductive Document.IsPredicate : Document → Prop
  | text (sql : String) : IsPredicate (.text sql)
  | template (sql : String) (params : List Document) : IsPredicate (.list (.text sql :: params))
  | object {entries : List (String × Document)} (h : ∀ entry ∈ entries, IsClause entry.1 entry.2) :
    IsPredicate (.object entries)

/-- Whether an entry of an object states a clause. -/
inductive Document.IsClause : String → Document → Prop
  | choice {ds : List Document} (h : ∀ d ∈ ds, IsPredicate d) : IsClause "or" (.list ds)
  | arbitrary (d : Document) : IsClause "arbitrary" d
  | condition {key : String} {d : Document} (hchoice : key = "or" → ∀ ds, d ≠ .list ds)
    (h : d.IsCondition) : IsClause key d

end

/-! ## What is accepted -/

/-- Whether a reading succeeds exactly if something holds, and blames the filter otherwise. -/
def Accepts {α : Type} (x : Except Error α) (P : Prop) : Prop :=
  ((∃ a, x = .ok a) ↔ P) ∧ ∀ err, x = .error err → err.kind = .invalidFilter

namespace Accepts

variable {α β : Type} {x : Except Error α} {P Q : Prop}

theorem ok (a : α) (hP : P) : Accepts (.ok a) P := by
  refine ⟨⟨fun _ => hP, fun _ => ⟨a, rfl⟩⟩, fun err h => ?_⟩
  cases h

theorem error {err : Error} (hkind : err.kind = .invalidFilter) (hP : ¬ P) :
    Accepts (.error err : Except Error α) P := by
  refine ⟨⟨?_, fun h => absurd h hP⟩, fun other h => ?_⟩
  · rintro ⟨a, h⟩
    cases h
  · cases h
    exact hkind

theorem congr (hx : Accepts x P) (h : P ↔ Q) : Accepts x Q := ⟨hx.1.trans h, hx.2⟩

theorem map (f : α → β) (hx : Accepts x P) : Accepts (x.map f) P := by
  cases x with
  | error err => exact error (hx.2 err rfl) fun hP => by simpa using hx.1.mpr hP
  | ok a => exact ok (f a) (hx.1.mp ⟨a, rfl⟩)

theorem bind {f : α → Except Error β} (hx : Accepts x P) (hf : ∀ a, x = .ok a → Accepts (f a) Q) :
    Accepts (x >>= f) (P ∧ Q) := by
  cases x with
  | error err => exact error (hx.2 err rfl) fun hPQ => by simpa using hx.1.mpr hPQ.1
  | ok a =>
    have hP : P := hx.1.mp ⟨a, rfl⟩
    exact (hf a rfl).congr (by simp [hP])

end Accepts

theorem Operator.accepts_ofKey (key : String) (operand : Document) :
    Accepts (ofKey key operand) (key = "between" → ∃ low high, operand = .list [low, high]) := by
  unfold ofKey
  split
  case h_8 =>
    split
    · exact .ok _ fun _ => ⟨_, _, rfl⟩
    · next hpair =>
      refine .error rfl fun h => ?_
      obtain ⟨low, high, hoperand⟩ := h rfl
      exact hpair low high hoperand
  case h_11 hkey _ _ => exact .ok _ fun h => absurd h hkey
  all_goals exact .ok _ fun h => absurd h (by decide)

namespace Predicate

theorem accepts_conditionOf (d : Document) : Accepts (conditionOf d) d.IsCondition := by
  unfold conditionOf
  split
  · refine .ok _ ⟨by simp, ?_⟩
    rintro operand h
    cases h
    exact ⟨_, rfl⟩
  · next other hother =>
    refine .error rfl fun h => ?_
    obtain ⟨source, hsource⟩ := h.pattern other rfl
    exact hother source hsource
  · next key operand htext hregexp =>
    refine ((Operator.accepts_ofKey key operand).map _).congr ⟨fun h => ⟨?_, ?_⟩, fun h hkey => ?_⟩
    · rintro _ hd
      cases hd
      exact h rfl
    · rintro other hd
      cases hd
      exact absurd rfl hregexp
    · exact h.range operand (by rw [hkey])
  · next hsingle =>
    exact .ok _ ⟨fun operand hd => absurd hd (hsingle _ operand),
      fun operand hd => absurd hd (hsingle _ operand)⟩

theorem accepts_plainClause {key : String} {d : Document}
    (hchoice : key = "or" → ∀ ds, d ≠ .list ds) : Accepts (plainClause key d) (d.IsClause key) := by
  unfold plainClause
  split
  · next hkey =>
    subst hkey
    exact .ok _ (.arbitrary d)
  · next hkey =>
    refine ((accepts_conditionOf d).map _).congr ⟨.condition hchoice, fun h => ?_⟩
    cases h with
    | choice => exact absurd rfl (hchoice rfl _)
    | arbitrary => exact absurd rfl hkey
    | condition _ hcondition => exact hcondition

-- Along the recursion of the reader. A document is accepted if its entries are, and an entry that is a
-- choice if its branches are.
mutual

theorem accepts_ofDocument : (d : Document) → Accepts (ofDocument d) d.IsPredicate
  | .text sql => .ok _ (.text sql)
  | .list [] => .error rfl (by rintro ⟨⟩)
  | .list (.text sql :: params) => .ok _ (.template sql params)
  | .list (.null :: _) | .list (.bool _ :: _) | .list (.number _ :: _) | .list (.list _ :: _)
  | .list (.object _ :: _) => .error rfl (by rintro ⟨⟩)
  | .object entries => by
    refine ((accepts_clausesOf entries).map _).congr ⟨.object, fun h => ?_⟩
    cases h with
    | object h => exact h
  | .null | .bool _ | .number _ => .error rfl (by rintro ⟨⟩)

theorem accepts_clausesOf : (entries : List (String × Document)) →
    Accepts (clausesOf entries) (∀ entry ∈ entries, entry.2.IsClause entry.1)
  | [] => .ok _ (by simp)
  | (key, value) :: rest => by
    rw [List.forall_mem_cons]
    exact (accepts_clauseOf key value).bind fun _ _ => (accepts_clausesOf rest).map _

theorem accepts_clauseOf (key : String) : (d : Document) → Accepts (clauseOf key d) (d.IsClause key)
  | .list branches => by
    rw [clauseOf]
    split
    · next hkey =>
      refine ((accepts_branchesOf branches).map _).congr ⟨fun h => hkey ▸ .choice h, fun h => ?_⟩
      cases h with
      | choice h => exact h
      | arbitrary => exact absurd hkey (by decide)
      | condition hchoice _ => exact absurd rfl (hchoice hkey branches)
    · next hkey => exact accepts_plainClause fun h => absurd h hkey
  | .null | .bool _ | .number _ | .text _ | .object _ => accepts_plainClause (by simp)

theorem accepts_branchesOf : (ds : List Document) →
    Accepts (branchesOf ds) (∀ d ∈ ds, d.IsPredicate)
  | [] => .ok _ (by simp)
  | d :: ds => by
    rw [List.forall_mem_cons]
    exact (accepts_ofDocument d).bind fun _ _ => (accepts_branchesOf ds).map _

end

end Predicate

/-! ## What is stated -/

def Operator.names : List String :=
  ["gt", "gte", "lt", "lte", "neq", "like", "nlike", "between", "inq", "nin"]

/-- The name that an operator is known by. One with a token of its own has none. -/
def Operator.name? : Operator → Option String
  | .greater _ => some "gt"
  | .greaterOrEqual _ => some "gte"
  | .less _ => some "lt"
  | .lessOrEqual _ => some "lte"
  | .between .. => some "between"
  | .oneOf _ => some "inq"
  | .noneOf _ => some "nin"
  | .notEqual _ => some "neq"
  | .like _ => some "like"
  | .notLike _ => some "nlike"
  | .verbatim .. => none

/-- The values that an operator compares with. -/
def Operator.values : Operator → List Value
  | .greater v | .greaterOrEqual v | .less v | .lessOrEqual v | .notEqual v | .like v | .notLike v
  | .verbatim _ v => [v]
  | .between low high => [low, high]
  | .oneOf vs | .noneOf vs => vs

/-- The values that an operand states under a name of an operator. A range and a set have those of a list. -/
def Document.valuesUnder (name : String) : Document → List Value
  | .list items =>
    if name ∈ ["between", "inq", "nin"] then items.map .ofDocument else [.ofDocument (.list items)]
  | d => [.ofDocument d]

/-- The condition that a document states. -/
inductive Condition.StatedBy : Document → Condition → Prop
  | equals {d : Document} (h : ∀ entry, d ≠ .object [entry]) : StatedBy d (.equals (.ofDocument d))
  | pattern (source : String) :
    StatedBy (.object [("regexp", .text source)]) (.pattern (.ofText source))
  | named {name : String} {operand : Document} {op : Operator} (hname : op.name? = some name)
    (hvalues : op.values = operand.valuesUnder name) :
    StatedBy (.object [(name, operand)]) (.operator op)
  | verbatim {token : String} (operand : Document) (h : token ∉ "regexp" :: Operator.names) :
    StatedBy (.object [(token, operand)]) (.operator (.verbatim token (.ofDocument operand)))

/-- The clause that an entry of an object states. The branches of a choice are at places of their own. -/
inductive Clause.StatedBy : String → Document → Clause → Prop
  | choice {ds : List Document} {bs : List Predicate} (h : ds.length = bs.length) :
    StatedBy "or" (.list ds) (.any bs)
  | arbitrary (d : Document) : StatedBy "arbitrary" d (.arbitrary (Predicate.trusted d))
  | attribute {key : String} {d : Document} {c : Condition} (harbitrary : key ≠ "arbitrary")
    (hchoice : key = "or" → ∀ ds, d ≠ .list ds) (h : c.StatedBy d) :
    StatedBy key d (.attribute key c)

/-- The predicate that a document states. An object has one clause for each entry, in their order. -/
inductive Predicate.StatedBy : Document → Predicate → Prop
  | text (sql : String) : StatedBy (.text sql) (.raw sql)
  | template (sql : String) (params : List Document) :
    StatedBy (.list (.text sql :: params)) (.template sql (params.map .ofDocument))
  | object {entries : List (String × Document)} {cs : List Clause}
    (h : List.Forall₂ (fun entry c => c.StatedBy entry.1 entry.2) entries cs) :
    StatedBy (.object entries) (.all cs)

/-! ## Places -/

namespace Document

/-- The branches that an entry of an object offers. -/
def branches (key : String) : Document → List Document
  | .list ds => if key = "or" then ds else []
  | _ => []

/-- The branch at a place: the number of an entry, and the number of a branch of it. -/
def branch? (place : Nat × Nat) : Document → Option Document
  | .object entries => entries[place.1]?.bind fun entry => (entry.2.branches entry.1)[place.2]?
  | _ => none

/-- What is at the end of a path through branches. -/
def at? : List (Nat × Nat) → Document → Option Document
  | [], d => some d
  | place :: path, d => (d.branch? place).bind (at? path)

end Document

/-- The branches that a clause offers. -/
def Clause.branches : Clause → List Predicate
  | .any bs => bs
  | _ => []

namespace Predicate

/-- The branch at a place: the number of a clause, and the number of a branch of it. -/
def branch? (place : Nat × Nat) : Predicate → Option Predicate
  | .all cs => cs[place.1]?.bind fun c => c.branches[place.2]?
  | _ => none

/-- What is at the end of a path through branches. -/
def at? : List (Nat × Nat) → Predicate → Option Predicate
  | [], p => some p
  | place :: path, p => (p.branch? place).bind (at? path)

end Predicate

/-! ## Member by member -/

section Rel

variable {α β γ δ : Type} {R : α → β → Prop} {S : γ → δ → Prop}

theorem forall₂_of_mapM {ε : Type} {f : α → Except ε β} {as : List α} {bs : List β}
    (h : as.mapM f = .ok bs) : List.Forall₂ (fun a b => f a = .ok b) as bs := by
  induction as generalizing bs with
  | nil =>
    cases h
    exact .nil
  | cons a as ih =>
    rw [List.mapM_cons] at h
    obtain ⟨b, hb, h⟩ := bind_eq_ok_iff.mp h
    obtain ⟨rest, hrest, h⟩ := bind_eq_ok_iff.mp h
    cases h
    exact .cons hb (ih hrest)

theorem rel_getElem? {as : List α} {bs : List β} (h : List.Forall₂ R as bs) (i : Nat) :
    Option.Rel R as[i]? bs[i]? := by
  induction h generalizing i with
  | nil => exact .none
  | cons hab _ ih =>
    cases i with
    | zero => exact .some hab
    | succ i => exact ih i

theorem rel_bind {x : Option α} {y : Option β} {f : α → Option γ} {g : β → Option δ}
    (h : Option.Rel R x y) (hf : ∀ a b, R a b → Option.Rel S (f a) (g b)) :
    Option.Rel S (x.bind f) (y.bind g) := by
  cases h with
  | none => exact .none
  | some hab => exact hf _ _ hab

end Rel

/-! ## What comes of an accepted document -/

/-- Under a name that has no range and no set, an operand is a value as a whole. -/
theorem Document.valuesUnder_single {name : String} (h : name ∉ ["between", "inq", "nin"])
    (d : Document) : d.valuesUnder name = [.ofDocument d] := by
  cases d with
  | list items => exact if_neg h
  | _ => rfl

theorem Operator.setOf_eq_valuesUnder {name : String} (h : name ∈ ["between", "inq", "nin"])
    (d : Document) : setOf d = d.valuesUnder name := by
  cases d with
  | list items => exact (if_pos h).symm
  | _ => rfl

theorem Operator.ofKey_eq_ok {key : String} {operand : Document} {op : Operator}
    (h : ofKey key operand = .ok op) :
    (op.name? = some key ∧ op.values = operand.valuesUnder key)
      ∨ key ∉ names ∧ op = .verbatim key (.ofDocument operand) := by
  unfold ofKey at h
  split at h
  case h_8 =>
    split at h
    · cases h
      exact .inl ⟨rfl, rfl⟩
    · cases h
  case h_9 | h_10 =>
    cases h
    exact .inl ⟨rfl, setOf_eq_valuesUnder (by decide) operand⟩
  case h_11 =>
    cases h
    refine .inr ⟨?_, rfl⟩
    simp_all [names]
  all_goals
    cases h
    exact .inl ⟨rfl, (Document.valuesUnder_single (by decide) operand).symm⟩

namespace Predicate

theorem statedBy_of_conditionOf {d : Document} {c : Condition} (h : conditionOf d = .ok c) :
    c.StatedBy d := by
  unfold conditionOf at h
  split at h
  · next source =>
    cases h
    exact .pattern source
  · cases h
  · next key operand htext hregexp =>
    obtain ⟨op, hop, rfl⟩ := map_eq_ok_iff.mp h
    obtain ⟨hname, hvalues⟩ | ⟨hnames, rfl⟩ := Operator.ofKey_eq_ok hop
    · exact .named hname hvalues
    · exact .verbatim operand (List.not_mem_cons_of_ne_of_not_mem hregexp hnames)
  · next hsingle =>
    cases h
    exact .equals fun entry => hsingle entry.1 entry.2

theorem statedBy_of_plainClause {key : String} {d : Document} {c : Clause}
    (hchoice : key = "or" → ∀ ds, d ≠ .list ds) (h : plainClause key d = .ok c) :
    c.StatedBy key d ∧ c.branches = [] := by
  unfold plainClause at h
  split at h
  · next hkey =>
    cases h
    exact ⟨hkey ▸ .arbitrary d, rfl⟩
  · next hkey =>
    obtain ⟨condition, hcondition, rfl⟩ := map_eq_ok_iff.mp h
    exact ⟨.attribute hkey hchoice (statedBy_of_conditionOf hcondition), rfl⟩

/-- Whether a predicate is what is read from a document. -/
abbrev ReadFrom (d : Document) (p : Predicate) : Prop := ofDocument d = .ok p

theorem branchesOf_eq_mapM (ds : List Document) : branchesOf ds = ds.mapM ofDocument := by
  induction ds with
  | nil => rfl
  | cons d ds ih =>
    rw [branchesOf, List.mapM_cons, ih]

theorem clausesOf_eq_mapM (entries : List (String × Document)) :
    clausesOf entries = entries.mapM fun entry => clauseOf entry.1 entry.2 := by
  induction entries with
  | nil => rfl
  | cons entry entries ih =>
    rw [clausesOf, List.mapM_cons, ih]

theorem statedBy_of_clauseOf {key : String} {d : Document} {c : Clause}
    (h : clauseOf key d = .ok c) :
    c.StatedBy key d ∧ List.Forall₂ ReadFrom (d.branches key) c.branches := by
  have hplain (hchoice : key = "or" → ∀ ds, d ≠ .list ds) (h : plainClause key d = .ok c)
      (hnone : d.branches key = []) :
      c.StatedBy key d ∧ List.Forall₂ ReadFrom (d.branches key) c.branches := by
    obtain ⟨hstated, hbranches⟩ := statedBy_of_plainClause hchoice h
    rw [hnone, hbranches]
    exact ⟨hstated, .nil⟩
  cases d with
  | list ds =>
    rw [clauseOf] at h
    split at h
    · next hkey =>
      obtain ⟨bs, hbs, rfl⟩ := map_eq_ok_iff.mp h
      have hread := forall₂_of_mapM ((branchesOf_eq_mapM ds).symm.trans hbs)
      rw [Document.branches, if_pos hkey]
      exact ⟨hkey ▸ .choice hread.length_eq, hread⟩
    · next hkey => exact hplain (fun hor => absurd hor hkey) h (if_neg hkey)
  | null | bool _ | number _ | text _ | object _ => exact hplain (by simp) h rfl

theorem ReadFrom.statedBy {d : Document} {p : Predicate} (h : ReadFrom d p) : p.StatedBy d := by
  cases d with
  | null | bool _ | number _ => cases h
  | text sql =>
    cases h
    exact .text sql
  | list ds =>
    cases ds with
    | nil => cases h
    | cons d params =>
      cases d with
      | text sql =>
        cases h
        exact .template sql params
      | null | bool _ | number _ | list _ | object _ => cases h
  | object entries =>
    obtain ⟨cs, hcs, rfl⟩ := map_eq_ok_iff.mp h
    rw [clausesOf_eq_mapM] at hcs
    exact .object ((forall₂_of_mapM hcs).imp fun _ _ hc => (statedBy_of_clauseOf hc).1)

/-- A step to a branch leads from what is read to what is read. -/
theorem ReadFrom.branch? {d : Document} {p : Predicate} (h : ReadFrom d p) (place : Nat × Nat) :
    Option.Rel ReadFrom (d.branch? place) (p.branch? place) := by
  cases h.statedBy with
  | text | template => exact .none
  | object _ =>
    obtain ⟨cs, hcs, heq⟩ := map_eq_ok_iff.mp h
    cases heq
    rw [clausesOf_eq_mapM] at hcs
    refine rel_bind (rel_getElem? (forall₂_of_mapM hcs) place.1) fun entry c hc => ?_
    exact rel_getElem? (statedBy_of_clauseOf hc).2 place.2

theorem ReadFrom.at? {d : Document} {p : Predicate} (h : ReadFrom d p) (path : List (Nat × Nat)) :
    Option.Rel ReadFrom (d.at? path) (p.at? path) := by
  induction path generalizing d p with
  | nil => exact .some h
  | cons place path ih => exact rel_bind (h.branch? place) fun _ _ hbranch => ih hbranch

/-- A document is accepted exactly if it is of the grammar, and a failure blames the filter. Of an
accepted one, each place states what is at the same place of the predicate: trusted parts are only where
the document has them. -/
theorem reads_exactly_the_grammar (d : Document) :
    ((∃ p, ofDocument d = .ok p) ↔ d.IsPredicate)
    ∧ (∀ err, ofDocument d = .error err → err.kind = .invalidFilter)
    ∧ ∀ p, ofDocument d = .ok p → ∀ path,
      Option.Rel (fun d p => p.StatedBy d) (d.at? path) (p.at? path) := by
  refine ⟨(accepts_ofDocument d).1, (accepts_ofDocument d).2, fun p h path => ?_⟩
  have hread := ReadFrom.at? h path
  generalize d.at? path = found, p.at? path = read at hread
  cases hread with
  | none => exact .none
  | some hread => exact .some hread.statedBy

/-- A choice is a list, everything arbitrary is trusted, and an object with two keys is a value. -/
example : ofDocument (.object [("or", .text "a"), ("arbitrary", .null),
      ("n", .object [("gt", .null), ("lt", .null)])])
    = .ok (.all [.attribute "or" (.equals (.text "a")), .arbitrary "null",
      .attribute "n" (.equals (.document (.object [("gt", .null), ("lt", .null)])))]) := by
  rfl

end Predicate

end EntityStore
