import EntityStore.Proofs.Filter.Refusals

/-!
# Clauses on names that nobody declared

A clause on a name that is no attribute of the entity should contribute nothing, so a predicate should
compile to the same texts with and without such clauses, however deep in it they are. It does as long as
none of them is a pattern (`clauses_pruned_eq_iff`): a pattern names its column itself and is written down
without asking whether there is such an attribute. Whether a predicate fails to compile, and why, does not
depend on these clauses at all.

That a pattern makes a difference at every depth is a matter of length. Without it there are fewer texts
or shorter ones, and neither joining texts nor bracketing them can make up for that.
-/

set_option autoImplicit false

namespace EntityStore

/-! ## Without undeclared names -/

mutual

/-- A predicate without the clauses on names that are not declared, at any depth. -/
def Predicate.pruned (e : Entity) : Predicate → Predicate
  | .raw sql => .raw sql
  | .template sql params => .template sql params
  | .all cs => .all (Clause.prunedAll e cs)

def Clause.prunedAll (e : Entity) : List Clause → List Clause
  | [] => []
  | c :: cs => c.pruned e ++ Clause.prunedAll e cs

/-- What is left of one clause, if anything is. -/
def Clause.pruned (e : Entity) : Clause → List Clause
  | .attribute name condition =>
    if (e.attribute? name).isSome then [.attribute name condition] else []
  | .any branches => [.any (Predicate.prunedEach e branches)]
  | .arbitrary sql => [.arbitrary sql]

def Predicate.prunedEach (e : Entity) : List Predicate → List Predicate
  | [] => []
  | b :: bs => b.pruned e :: Predicate.prunedEach e bs

end

mutual

/-- Whether every pattern of a predicate is about a declared attribute. -/
def Predicate.patternsDeclared (e : Entity) : Predicate → Bool
  | .raw _ | .template .. => true
  | .all cs => Clause.allPatternsDeclared e cs

def Clause.allPatternsDeclared (e : Entity) : List Clause → Bool
  | [] => true
  | c :: cs => c.patternsDeclared e && Clause.allPatternsDeclared e cs

def Clause.patternsDeclared (e : Entity) : Clause → Bool
  | .attribute name (.pattern _) => (e.attribute? name).isSome
  | .attribute .. | .arbitrary _ => true
  | .any branches => Predicate.allPatternsDeclared e branches

def Predicate.allPatternsDeclared (e : Entity) : List Predicate → Bool
  | [] => true
  | b :: bs => b.patternsDeclared e && Predicate.allPatternsDeclared e bs

end

namespace Sql

variable {e : Entity}

/-! ## Failures -/

theorem comparandsOfAll_append (cs ds : List Clause) : Clause.comparandsOfAll e (cs ++ ds)
    = Clause.comparandsOfAll e cs ++ Clause.comparandsOfAll e ds := by
  induction cs with
  | nil => rfl
  | cons c cs ih =>
    simp only [List.cons_append, Clause.comparandsOfAll, ih, List.append_assoc]

mutual

/-- Only declared attributes are compared with anything, so nothing is lost of the comparands. -/
theorem comparands_pruned : (p : Predicate) → (p.pruned e).comparands e = p.comparands e
  | .raw _ | .template .. => rfl
  | .all cs => comparandsOfAll_pruned cs

theorem comparandsOfAll_pruned : (cs : List Clause) →
    Clause.comparandsOfAll e (Clause.prunedAll e cs) = Clause.comparandsOfAll e cs
  | [] => rfl
  | c :: cs => by
    rw [Clause.prunedAll, comparandsOfAll_append, comparandsOfAll_prunedOf c,
      comparandsOfAll_pruned cs, Clause.comparandsOfAll]

theorem comparandsOfAll_prunedOf : (c : Clause) →
    Clause.comparandsOfAll e (c.pruned e) = c.comparands e
  | .attribute name condition => by
    cases ha : e.attribute? name <;>
      simp [Clause.pruned, Clause.comparandsOfAll, Clause.comparands, ha]
  | .any branches => by
    simp only [Clause.pruned, Clause.comparandsOfAll, Clause.comparands, List.append_nil]
    exact comparandsOfAny_pruned branches
  | .arbitrary _ => rfl

theorem comparandsOfAny_pruned : (bs : List Predicate) →
    Predicate.comparandsOfAny e (Predicate.prunedEach e bs) = Predicate.comparandsOfAny e bs
  | [] => rfl
  | b :: bs => by
    rw [Predicate.prunedEach, Predicate.comparandsOfAny, comparands_pruned b,
      comparandsOfAny_pruned bs, Predicate.comparandsOfAny]

end

theorem error?_pruned (p : Predicate) : error? (clauses e (p.pruned e)) = error? (clauses e p) := by
  rw [error?_clauses, error?_clauses, comparands_pruned]

/-! ## Length of texts -/

def totalLength (texts : List String) : Nat := (texts.map String.length).sum

theorem totalLength_append (s t : List String) :
    totalLength (s ++ t) = totalLength s + totalLength t := by
  simp [totalLength]

theorem length_intercalate (separator : String) (texts : List String) :
    (separator.intercalate texts).length
      = totalLength texts + separator.length * (texts.length - 1) := by
  induction texts with
  | nil => rfl
  | cons text texts ih =>
    cases texts with
    | nil => simp [totalLength]
    | cons next texts =>
      rw [String.intercalate_cons_cons, String.length_append, String.length_append, ih]
      simp only [totalLength, List.map_cons, List.sum_cons, List.length_cons, Nat.add_sub_cancel]
      rw [Nat.mul_succ]
      omega

/-- The number of brackets and of characters of connectives in a branch of so many texts. -/
def branchExtra (n : Nat) : Nat := if n ≤ 1 then 0 else 5 * (n - 1) + 2

/-- The number of brackets and of characters of connectives in a choice of so many texts. -/
def choiceExtra (n : Nat) : Nat := if n = 0 then 0 else 4 * (n - 1) + 2

theorem length_branchText (texts : List String) : (branchText texts).length = min texts.length 1 := by
  rcases texts with _ | ⟨text, _ | ⟨next, texts⟩⟩
  · rfl
  · rfl
  · simp [branchText]

theorem totalLength_branchText (texts : List String) :
    totalLength (branchText texts) = totalLength texts + branchExtra texts.length := by
  rcases texts with _ | ⟨text, _ | ⟨next, texts⟩⟩
  · rfl
  · simp [branchText, branchExtra]
  · have hjoin := length_intercalate " AND " (text :: next :: texts)
    have hand : " AND ".length = 5 := rfl
    have hopen : "(".length = 1 := rfl
    have hclose : ")".length = 1 := rfl
    rw [hand] at hjoin
    simp only [branchText, conjunction, totalLength, List.map_cons, List.map_nil, List.sum_cons,
      List.sum_nil, String.length_append, List.length_cons, hjoin, hopen, hclose, branchExtra]
      at hjoin ⊢
    rw [if_neg (by omega)]
    omega

theorem length_choiceText (texts : List String) : (choiceText texts).length = min texts.length 1 := by
  cases texts with
  | nil => rfl
  | cons text texts => simp [choiceText]

theorem totalLength_choiceText (texts : List String) :
    totalLength (choiceText texts) = totalLength texts + choiceExtra texts.length := by
  cases texts with
  | nil => rfl
  | cons text texts =>
    have hjoin := length_intercalate " OR " (text :: texts)
    have hor : " OR ".length = 4 := rfl
    have hopen : "(".length = 1 := rfl
    have hclose : ")".length = 1 := rfl
    rw [hor] at hjoin
    simp only [choiceText, totalLength, List.map_cons, List.map_nil, List.sum_cons, List.sum_nil,
      String.length_append, List.length_cons, hjoin, hopen, hclose, choiceExtra] at hjoin ⊢
    rw [if_neg (by omega)]
    omega

/-! ## What pruning leaves -/

/-- What is left of some texts: all of them, or fewer and shorter ones. -/
structure LeftOf (all : Bool) (short full : List String) : Prop where
  length_le : short.length ≤ full.length
  size_le : totalLength short ≤ totalLength full
  same : all = true → short = full
  shorter : all = false → totalLength short < totalLength full

namespace LeftOf

variable {all all' : Bool} {short short' full full' : List String}

theorem whole (texts : List String) : LeftOf true texts texts where
  length_le := Nat.le_refl _
  size_le := Nat.le_refl _
  same _ := rfl
  shorter h := by cases h

theorem append (h : LeftOf all short full) (h' : LeftOf all' short' full') :
    LeftOf (all && all') (short ++ short') (full ++ full') where
  length_le := by
    have hle := h.length_le
    have hle' := h'.length_le
    simp only [List.length_append]
    omega
  size_le := by
    rw [totalLength_append, totalLength_append]
    exact Nat.add_le_add h.size_le h'.size_le
  same hall := by
    rw [Bool.and_eq_true] at hall
    rw [h.same hall.1, h'.same hall.2]
  shorter hall := by
    rw [totalLength_append, totalLength_append]
    have hle := h.size_le
    have hle' := h'.size_le
    rcases Bool.and_eq_false_iff.mp hall with hfalse | hfalse
    · have hlt := h.shorter hfalse
      omega
    · have hlt := h'.shorter hfalse
      omega

/-- Texts put together as one text, with something added that is no less where there are more texts. -/
theorem together {wrap : List String → List String} {extra : Nat → Nat}
    (hlength : ∀ texts, (wrap texts).length = min texts.length 1)
    (hsize : ∀ texts, totalLength (wrap texts) = totalLength texts + extra texts.length)
    (hextra : ∀ m n, m ≤ n → extra m ≤ extra n) (h : LeftOf all short full) :
    LeftOf all (wrap short) (wrap full) where
  length_le := by
    have hle := h.length_le
    rw [hlength, hlength]
    omega
  size_le := by
    rw [hsize, hsize]
    exact Nat.add_le_add h.size_le (hextra _ _ h.length_le)
  same hall := by rw [h.same hall]
  shorter hall := by
    rw [hsize, hsize]
    exact Nat.add_lt_add_of_lt_of_le (h.shorter hall) (hextra _ _ h.length_le)

theorem branch (h : LeftOf all short full) : LeftOf all (branchText short) (branchText full) := by
  apply h.together length_branchText totalLength_branchText
  intro m n hmn
  unfold branchExtra
  split <;> split <;> omega

theorem choice (h : LeftOf all short full) : LeftOf all (choiceText short) (choiceText full) := by
  apply h.together length_choiceText totalLength_choiceText
  intro m n hmn
  unfold choiceExtra
  split <;> split <;> omega

end LeftOf

/-! ## Predicates -/

theorem clausesOfAll_append (cs ds : List Clause) : clausesOfAll e (cs ++ ds)
    = do return (← clausesOfAll e cs) ++ (← clausesOfAll e ds) := by
  induction cs with
  | nil =>
    cases h : clausesOfAll e ds <;> simp [clausesOfAll, h, bind, Except.bind, pure, Except.pure]
  | cons c cs ih =>
    rw [List.cons_append, clausesOfAll, clausesOfAll, ih]
    cases clause e c <;> cases clausesOfAll e cs <;> cases clausesOfAll e ds <;>
      simp [bind, Except.bind, pure, Except.pure]

theorem patternClause_ne_empty (name : String) (p : Pattern) : 0 < (patternClause name p).length := by
  have hopen : 0 < (if p.ignoreCase then " ~* '" else " ~ '").length := by
    cases p.ignoreCase <;> decide
  simp only [patternClause, String.length_append]
  omega

/-- A clause on a name that is not declared is written down only if it is a pattern. -/
theorem leftOf_attribute {name : String} {condition : Condition} {full : List String}
    (h : attributeClause e name condition = .ok full) :
    ∃ short, clausesOfAll e ((Clause.attribute name condition).pruned e) = .ok short
      ∧ LeftOf ((Clause.attribute name condition).patternsDeclared e) short full := by
  cases ha : e.attribute? name with
  | some a =>
    have hclause : clausesOfAll e [.attribute name condition] = .ok full := by
      simp [clausesOfAll, clause, h, bind, Except.bind, pure, Except.pure]
    refine ⟨full, by simpa [Clause.pruned, ha] using hclause, ?_⟩
    cases condition <;> simpa [Clause.patternsDeclared, ha] using .whole full
  -- On a name that is not declared only a pattern is written down.
  | none =>
    refine ⟨[], by simp [Clause.pruned, ha, clausesOfAll], ?_⟩
    cases condition with
    | pattern p =>
      cases h
      have hpos := patternClause_ne_empty name p
      simp only [Clause.patternsDeclared, ha]
      constructor
      case length_le => simp
      case size_le => simp [totalLength]
      case same =>
        intro h
        cases h
      case shorter =>
        intro _
        simpa [totalLength] using hpos
    | equals v | operator op =>
      simp only [attributeClause, ha] at h
      cases h
      exact .whole []

-- One case for each way a predicate is put together, as the clauses are compiled.
mutual

/-- What a predicate compiles to is there without the undeclared names as well, apart from the patterns
on such names. -/
theorem leftOf_clauses : (p : Predicate) → {full : List String} → clauses e p = .ok full →
    ∃ short, clauses e (p.pruned e) = .ok short ∧ LeftOf (p.patternsDeclared e) short full
  | .raw _, _, h | .template .., _, h => ⟨_, h, .whole _⟩
  | .all cs, _, h => leftOf_clausesOfAll cs h

theorem leftOf_clausesOfAll : (cs : List Clause) → {full : List String} →
    clausesOfAll e cs = .ok full → ∃ short, clausesOfAll e (Clause.prunedAll e cs) = .ok short
      ∧ LeftOf (Clause.allPatternsDeclared e cs) short full
  | [], _, h => ⟨_, h, .whole _⟩
  | c :: cs, _, h => by
    simp only [clausesOfAll, bind_eq_ok_iff] at h
    obtain ⟨first, hfirst, rest, hrest, h⟩ := h
    cases h
    obtain ⟨short, hshort, hleft⟩ := leftOf_clause c hfirst
    obtain ⟨shorts, hshorts, hlefts⟩ := leftOf_clausesOfAll cs hrest
    refine ⟨short ++ shorts, ?_, hleft.append hlefts⟩
    rw [Clause.prunedAll, clausesOfAll_append, hshort, hshorts]
    rfl

theorem leftOf_clause : (c : Clause) → {full : List String} → clause e c = .ok full →
    ∃ short, clausesOfAll e (c.pruned e) = .ok short ∧ LeftOf (c.patternsDeclared e) short full
  | .attribute _ _, _, h => leftOf_attribute h
  | .any branches, _, h => by
    simp only [clause, map_eq_ok_iff] at h
    obtain ⟨found, hfound, rfl⟩ := h
    obtain ⟨short, hshort, hleft⟩ := leftOf_branchTexts branches hfound
    refine ⟨choiceText short, ?_, hleft.choice⟩
    simp [Clause.pruned, clausesOfAll, clause, hshort, Except.map, bind, Except.bind, pure,
      Except.pure]
  | .arbitrary sql, _, h => by
    cases h
    exact ⟨[sql], rfl, .whole _⟩

theorem leftOf_branchTexts : (bs : List Predicate) → {full : List String} →
    branchTexts e bs = .ok full → ∃ short, branchTexts e (Predicate.prunedEach e bs) = .ok short
      ∧ LeftOf (Predicate.allPatternsDeclared e bs) short full
  | [], _, h => ⟨_, h, .whole _⟩
  | b :: bs, _, h => by
    simp only [branchTexts, bind_eq_ok_iff] at h
    obtain ⟨first, hfirst, rest, hrest, h⟩ := h
    cases h
    obtain ⟨short, hshort, hleft⟩ := leftOf_clauses b hfirst
    obtain ⟨shorts, hshorts, hlefts⟩ := leftOf_branchTexts bs hrest
    refine ⟨branchText short ++ shorts, ?_, hleft.branch.append hlefts⟩
    rw [Predicate.prunedEach, branchTexts, hshort, hshorts]
    rfl

end

/-- Clauses on names that are not declared never decide whether a predicate fails, and for what. What it
compiles to is the same without them unless it is compiled at all and one of them is a pattern. -/
theorem clauses_pruned_eq_iff (e : Entity) (p : Predicate) :
    error? (clauses e (p.pruned e)) = error? (clauses e p)
      ∧ (clauses e (p.pruned e) = clauses e p ↔
        (∃ err, clauses e p = .error err) ∨ p.patternsDeclared e = true) := by
  refine ⟨error?_pruned p, ?_⟩
  cases h : clauses e p with
  | error err =>
    have hpruned := error?_pruned (e := e) p
    rw [h] at hpruned
    rw [error?_eq_some_iff.mp hpruned]
    exact ⟨fun _ => .inl ⟨err, rfl⟩, fun _ => rfl⟩
  | ok full =>
    obtain ⟨short, hshort, hleft⟩ := leftOf_clauses p h
    rw [hshort]
    constructor
    · intro heq
      right
      cases heq
      by_contra hpattern
      have hlt := hleft.shorter (Bool.not_eq_true _ ▸ hpattern)
      exact Nat.lt_irrefl _ hlt
    · rintro (⟨err, herr⟩ | hpatterns)
      · cases herr
      · rw [hleft.same hpatterns]

/-- A comparison with a declared attribute, and a comparison and a pattern on a name that is none. -/
def strayNames : Predicate :=
  .all [.attribute "title" (.equals (.text "a")), .attribute "gone" (.equals (.text "b")),
    .attribute "gone" (.pattern ⟨"^b", false⟩)]

/-- Of the clauses on the name that is not declared the comparison goes and the pattern stays. -/
theorem undeclared_pattern_stays :
    let note : Entity := .declare "note" none [.plain "title" .string] []
    clauses note strayNames = .ok ["\"title\" = E'a'", "\"gone\" ~ '^b'"]
      ∧ clauses note (strayNames.pruned note) = .ok ["\"title\" = E'a'"]
      ∧ ¬ ∀ (e : Entity) (p : Predicate), clauses e (p.pruned e) = clauses e p := by
  intro note
  have hall : clauses note strayNames = .ok ["\"title\" = E'a'", "\"gone\" ~ '^b'"] := rfl
  have hpruned : clauses note (strayNames.pruned note) = .ok ["\"title\" = E'a'"] := rfl
  refine ⟨hall, hpruned, fun h => ?_⟩
  have hsame := hpruned.symm.trans ((h note strayNames).trans hall)
  cases hsame

end Sql

end EntityStore
