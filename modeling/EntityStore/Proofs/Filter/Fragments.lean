import EntityStore.Proofs.Filter.Outline
import EntityStore.Proofs.Filter.Reading
import EntityStore.Proofs.Sql.Enclosed
import EntityStore.Proofs.Sql.Qualified

/-!
# Trusted text among the clauses

Trusted text goes into a statement as it is. Where it stands alone or in brackets it counts as one
operand, but beside another clause it is joined to that with an `AND` and no bracket. If it has an
alternative of its own there, the `AND` takes only a part of it (`reads_asOperands_iff`): then the statement
selects rows that the other clauses rule out. It never selects fewer rows than were asked for. If no trusted
text is exposed in this way, a text means what the predicate says with each trusted text as one operand, and
a clause more selects no more rows.

This is about trusted text that is a condition by itself and leaves nothing open at its end, neither a quote
nor a comment (`IsCondition`).
-/

set_option autoImplicit false

namespace EntityStore

open Sql Outline

open Alternatives (meet meetAll)

/-! ## Conditions as text -/

/-- A text that is a condition with some alternatives, whatever a statement puts behind it. -/
def IsCondition (text : String) (as : Alternatives (List Token)) : Prop :=
  ∃ ts, Cuts text.toList ts ∧ Outlines ts as

namespace IsCondition

variable {s t : String} {as bs : Alternatives (List Token)}

theorem full (h : IsCondition s as) : as.Full := by
  obtain ⟨ts, -, houtlines⟩ := h
  exact houtlines.full

theorem read_eq (h : IsCondition s as) : Outline.read s.toList = some as := by
  obtain ⟨ts, hcuts, items, hitems, -, has⟩ := h
  rw [Outline.read, hcuts.tokens_eq, Option.bind_some, hitems, Option.bind_some, has]

theorem and (h : IsCondition s as) (h' : IsCondition t bs) :
    IsCondition (s ++ " AND " ++ t) (meet as bs) := by
  obtain ⟨ts, hcuts, houtlines⟩ := h
  obtain ⟨us, hcuts', houtlines'⟩ := h'
  have hand : isKeyword "AND" "and" = true := by decide
  refine ⟨_, ?_, houtlines.and houtlines'⟩
  rw [String.toList_append, String.toList_append]
  exact Cuts.between rfl hand hcuts hcuts'

theorem or (h : IsCondition s as) (h' : IsCondition t bs) :
    IsCondition (s ++ " OR " ++ t) (as ++ bs) := by
  obtain ⟨ts, hcuts, houtlines⟩ := h
  obtain ⟨us, hcuts', houtlines'⟩ := h'
  have hor : isKeyword "OR" "or" = true := by decide
  refine ⟨_, ?_, houtlines.or houtlines'⟩
  rw [String.toList_append, String.toList_append]
  exact Cuts.between rfl hor hcuts hcuts'

theorem parens (h : IsCondition s as) : IsCondition ("(" ++ s ++ ")") [[as.formula]] := by
  obtain ⟨ts, hcuts, houtlines⟩ := h
  refine ⟨_, ?_, houtlines.parens⟩
  have hparens := hcuts.parens
  simpa using hparens

section Joined

variable {α : Type} {l : List α} {text : α → String} {alternatives : α → Alternatives (List Token)}

/-- Texts joined with `AND` meet, one after the other. -/
theorem conjunction (h : ∀ a ∈ l, IsCondition (text a) (alternatives a)) (hne : l ≠ []) :
    IsCondition (Sql.conjunction (l.map text)) (meetAll (l.map alternatives)) := by
  induction l with
  | nil => exact absurd rfl hne
  | cons a l ih =>
    obtain ⟨hfirst, hrest⟩ := List.forall_mem_cons.mp h
    cases l with
    | nil =>
      rw [Sql.conjunction, List.map_singleton, String.intercalate_singleton, List.map_singleton,
        Alternatives.meetAll_single]
      exact hfirst
    | cons b l =>
      have hmore := ih hrest (List.cons_ne_nil _ _)
      rw [List.map_cons, List.map_cons, Sql.conjunction, String.intercalate_cons_cons]
      exact hfirst.and hmore

/-- The alternatives of texts joined with `OR` are those of all texts. -/
theorem choice (h : ∀ a ∈ l, IsCondition (text a) (alternatives a)) (hne : l ≠ []) :
    IsCondition (" OR ".intercalate (l.map text)) (l.map alternatives).flatten := by
  induction l with
  | nil => exact absurd rfl hne
  | cons a l ih =>
    obtain ⟨hfirst, hrest⟩ := List.forall_mem_cons.mp h
    cases l with
    | nil =>
      rw [List.map_singleton, String.intercalate_singleton, List.map_singleton, List.flatten_singleton]
      exact hfirst
    | cons b l =>
      have hmore := ih hrest (List.cons_ne_nil _ _)
      rw [List.map_cons, List.map_cons, String.intercalate_cons_cons]
      exact hfirst.or hmore

end Joined

theorem of_readsAtom {text : String} {a : Atom} (h : ReadsAtom text a) :
    ∃ f, IsCondition text [[f]] := by
  obtain ⟨ts, hlexes, hread⟩ := h.tokens
  have hatom := hread []
  rw [List.append_nil] at hatom
  obtain ⟨f, houtlines⟩ := outlines_of_atom? hatom
  exact ⟨f, ts, hlexes.cuts, houtlines⟩

/-- A pattern stays within its quotes if it has none itself. -/
theorem of_pattern (name : String) {p : Pattern} (hp : '\'' ∉ p.source.toList) :
    ∃ f, IsCondition (patternClause name p) [[f]] := by
  obtain ⟨op, hop, htext⟩ : ∃ op, (op = "~" ∨ op = "~*") ∧ (patternClause name p).toList
      = (quoteIdentifier name).toList
        ++ ' ' :: (op.toList ++ ' ' :: ('\'' :: (p.source.toList ++ ['\'']))) := by
    cases hcase : p.ignoreCase with
    | false => exact ⟨"~", .inl rfl, by simp [patternClause, hcase]⟩
    | true => exact ⟨"~*", .inr rfl, by simp [patternClause, hcase]⟩
  have hmatches : Lexes (op.toList ++ ' ' :: ('\'' :: (p.source.toList ++ ['\''])))
      [.operator op, .constant p.source] := by
    have hsource := lexes_plainConstant hp
    rw [String.ofList_toList] at hsource
    rcases hop with rfl | rfl
    · exact @lexes_operator "~" _ _ (fun _ => rfl) (by decide) hsource
    · exact @lexes_operator "~*" _ _ (fun _ => rfl) (by decide) hsource
  have hopens : Opens op.toList := by
    rcases hop with rfl | rfl <;> exact opens_cons _ (by decide) (by decide)
  have hclause := (lexes_quoteIdentifier name).blank hmatches (hopens.append _)
  rw [← htext] at hclause
  exact ⟨_, _, hclause.cuts, (Runs.tokens (by simp [Inert, kind, role])).outlines (by simp) rfl⟩

end IsCondition

/-! ## The pieces of a predicate -/

/-- Whether a condition is written without trusted text, or with such that its quotes hold together. -/
def Condition.contained : Condition → Bool
  | .equals _ => true
  | .operator op => op.structured
  | .pattern p => !p.source.toList.contains '\''

/-- A clause text that is joined with others: written by the program, or trusted. -/
inductive Piece where
  | written (text : String)
  | trusted (text : String)
  deriving DecidableEq

def Piece.text : Piece → String
  | .written text | .trusted text => text

/-- The alternatives that a piece has alone. -/
def Piece.alternatives (p : Piece) : Alternatives (List Token) := (Outline.read p.text.toList).getD []

/-- Pieces put together as text, with brackets around what is put together. -/
def Formula.text : Formula Piece → String :=
  fold Piece.text (fun texts => "(" ++ conjunction texts ++ ")")
    (fun texts => "(" ++ " OR ".intercalate texts ++ ")")

/-- The pieces of a formula, in their order. -/
def Formula.atoms {α : Type} : Formula α → List α := fold (fun a => [a]) List.flatten List.flatten

/-- The pieces of a branch, together if there is more than one. -/
def branchPieces : List (Formula Piece) → List (Formula Piece)
  | [] => []
  | [f] => [f]
  | fs => [.and fs]

/-- The pieces of the branches together, if there are any. -/
def choicePieces : List (Formula Piece) → List (Formula Piece)
  | [] => []
  | fs => [.or fs]

mutual

/-- The pieces of a predicate, as they are put together. -/
def pieces (e : Entity) : Predicate → Except Error (List (Formula Piece))
  | .raw sql => .ok [.atom (.trusted sql)]
  | .template sql params => .ok [.atom (.trusted (String.ofList (fillIn sql.toList params)))]
  | .all cs => piecesOfAll e cs

def piecesOfAll (e : Entity) : List Clause → Except Error (List (Formula Piece))
  | [] => .ok []
  | c :: cs => do
    let first ← piecesOf e c
    let rest ← piecesOfAll e cs
    return first ++ rest

def piecesOf (e : Entity) : Clause → Except Error (List (Formula Piece))
  | .attribute name condition =>
    (attributeClause e name condition).map fun texts => texts.map fun text =>
      .atom (if condition.contained then .written text else .trusted text)
  | .any branches => (piecesOfBranches e branches).map choicePieces
  | .arbitrary sql => .ok [.atom (.trusted sql)]

/-- The pieces of the branches that contribute any. -/
def piecesOfBranches (e : Entity) : List Predicate → Except Error (List (Formula Piece))
  | [] => .ok []
  | b :: bs => do
    let first ← pieces e b
    let rest ← piecesOfBranches e bs
    return branchPieces first ++ rest

end

section Text

variable {e : Entity}

theorem text_branchPieces (fs : List (Formula Piece)) :
    (branchPieces fs).map Formula.text = branchText (fs.map Formula.text) := by
  rcases fs with _ | ⟨f, _ | ⟨g, fs⟩⟩
  · rfl
  · rfl
  · simp only [branchPieces, branchText, List.map_cons, List.map_nil, Formula.text, Formula.fold,
      Formula.foldEach_eq_map]

theorem text_choicePieces (fs : List (Formula Piece)) :
    (choicePieces fs).map Formula.text = choiceText (fs.map Formula.text) := by
  cases fs with
  | nil => rfl
  | cons f fs =>
    simp only [choicePieces, choiceText, List.map_cons, List.map_nil, Formula.text, Formula.fold,
      Formula.foldEach_eq_map]

-- One case for each way a predicate is put together.
mutual

/-- The texts of the pieces are the clauses. -/
theorem text_pieces : (p : Predicate) →
    (pieces e p).map (·.map Formula.text) = clauses e p
  | .raw _ | .template .. => rfl
  | .all cs => text_piecesOfAll cs

theorem text_piecesOfAll : (cs : List Clause) →
    (piecesOfAll e cs).map (·.map Formula.text) = clausesOfAll e cs
  | [] => rfl
  | c :: cs => by
    rw [clausesOfAll, ← text_piecesOf c, ← text_piecesOfAll cs, piecesOfAll]
    cases piecesOf e c <;> cases piecesOfAll e cs <;>
      simp [Except.map, bind, Except.bind, pure, Except.pure]

theorem text_piecesOf : (c : Clause) → (piecesOf e c).map (·.map Formula.text) = clause e c
  | .attribute name condition => by
    rw [piecesOf, clause]
    cases attributeClause e name condition with
    | error err => rfl
    | ok texts =>
      refine congrArg Except.ok ?_
      dsimp only
      rw [List.map_map]
      refine (List.map_congr_left fun text _ => ?_).trans (List.map_id _)
      cases condition.contained <;> rfl
  | .any branches => by
    rw [clause, ← text_piecesOfBranches branches, piecesOf]
    cases piecesOfBranches e branches with
    | error err => rfl
    | ok fs => exact congrArg Except.ok (text_choicePieces fs)
  | .arbitrary _ => rfl

theorem text_piecesOfBranches : (bs : List Predicate) →
    (piecesOfBranches e bs).map (·.map Formula.text) = branchTexts e bs
  | [] => rfl
  | b :: bs => by
    rw [branchTexts, ← text_pieces b, ← text_piecesOfBranches bs, piecesOfBranches]
    cases pieces e b <;> cases piecesOfBranches e bs <;>
      simp [Except.map, bind, Except.bind, pure, Except.pure, text_branchPieces]

end

end Text

/-! ## Pieces that are conditions -/

/-- The pieces as the alternatives they have alone. -/
def Formula.parts (f : Formula Piece) : Formula (Alternatives (List Token)) := f.map Piece.alternatives

/-- Every piece is a condition by itself, and brackets hold something. -/
inductive Formula.Legible : Formula Piece → Prop where
  | atom {p : Piece} : IsCondition p.text p.alternatives → Legible (.atom p)
  | and {fs : List (Formula Piece)} : fs ≠ [] → (∀ f ∈ fs, Legible f) → Legible (.and fs)
  | or {fs : List (Formula Piece)} : fs ≠ [] → (∀ f ∈ fs, Legible f) → Legible (.or fs)

section Legible

open Formula

variable {f : Formula Piece} {fs : List (Formula Piece)}

theorem parts_and (fs : List (Formula Piece)) : (Formula.and fs).parts = .and (fs.map parts) := by
  rw [parts, Formula.map, mapEach_eq_map]
  rfl

theorem parts_or (fs : List (Formula Piece)) : (Formula.or fs).parts = .or (fs.map parts) := by
  rw [parts, Formula.map, mapEach_eq_map]
  rfl

theorem Formula.Legible.proper (h : f.Legible) : f.parts.Proper := by
  induction h with
  | atom h => exact .atom h.full
  | @and fs hne _ ih =>
    rw [parts_and]
    exact .and (by simpa using hne) (List.forall_mem_map.mpr ih)
  | @or fs hne _ ih =>
    rw [parts_or]
    exact .or (by simpa using hne) (List.forall_mem_map.mpr ih)

/-- A piece is read as the alternatives it has alone, and what is in brackets as one operand. -/
theorem Formula.Legible.isCondition (h : f.Legible) : IsCondition f.text f.parts.spliced := by
  induction h with
  | atom h => exact h
  | @and fs hne _ ih =>
    have hparens := (IsCondition.conjunction ih hne).parens
    rw [parts_and, spliced_and, List.map_map, Formula.text, fold, foldEach_eq_map]
    exact hparens
  | @or fs hne _ ih =>
    have hparens := (IsCondition.choice ih hne).parens
    rw [parts_or, spliced_or, List.map_map, Formula.text, fold, foldEach_eq_map]
    exact hparens

/-- Pieces that are joined without brackets are read as what becomes of them. -/
theorem exists_read_conjunction (h : ∀ f ∈ fs, f.Legible) (hne : fs ≠ []) :
    ∃ as, Outline.read (conjunction (fs.map Formula.text)).toList = some as
      ∧ as.formula = (Formula.and fs).parts.spliced.formula := by
  have hread := (IsCondition.conjunction (fun f hf => (h f hf).isCondition) hne).read_eq
  refine ⟨_, hread, ?_⟩
  rw [parts_and, spliced_and, List.map_map]
  rfl

end Legible

/-! ## The pieces of a predicate are conditions -/

section Pieces

variable {e : Entity}

/-- Some pieces of which each is a condition if its trusted text is. -/
def Sound (fs : List (Formula Piece)) : Prop :=
  ∀ f ∈ fs, (∀ text, .trusted text ∈ f.atoms → ∃ as, IsCondition text as) → f.Legible

theorem legible_atom {p : Piece} (h : ∃ as, IsCondition p.text as) : (Formula.atom p).Legible := by
  obtain ⟨as, has⟩ := h
  have hread : p.alternatives = as := by
    rw [Piece.alternatives, has.read_eq]
    rfl
  exact .atom (hread ▸ has)

theorem sound_trusted (text : String) : Sound [.atom (.trusted text)] := by
  intro f hf htrusted
  cases List.mem_singleton.mp hf
  exact legible_atom (htrusted text (by simp [Formula.atoms, Formula.fold]))

theorem sound_append {fs gs : List (Formula Piece)} (h : Sound fs) (h' : Sound gs) : Sound (fs ++ gs) :=
  List.forall_mem_append.mpr ⟨h, h'⟩

theorem atoms_and (fs : List (Formula Piece)) :
    (Formula.and fs).atoms = (fs.map Formula.atoms).flatten := by
  rw [Formula.atoms, Formula.fold, Formula.foldEach_eq_map]

theorem atoms_or (fs : List (Formula Piece)) :
    (Formula.or fs).atoms = (fs.map Formula.atoms).flatten := by
  rw [Formula.atoms, Formula.fold, Formula.foldEach_eq_map]

theorem mem_atoms {fs : List (Formula Piece)} {f : Formula Piece} (hf : f ∈ fs) {p : Piece}
    (hp : p ∈ f.atoms) : p ∈ (fs.map Formula.atoms).flatten :=
  List.mem_flatten.mpr ⟨_, List.mem_map_of_mem hf, hp⟩

theorem sound_branchPieces {fs : List (Formula Piece)} (h : Sound fs) : Sound (branchPieces fs) := by
  rcases fs with _ | ⟨f, _ | ⟨g, fs⟩⟩
  · exact h
  · exact h
  · intro f' hf' htrusted
    cases List.mem_singleton.mp hf'
    rw [atoms_and] at htrusted
    exact .and (List.cons_ne_nil _ _) fun f'' hf'' => h f'' hf'' fun text htext =>
      htrusted text (mem_atoms hf'' htext)

theorem sound_choicePieces {fs : List (Formula Piece)} (h : Sound fs) : Sound (choicePieces fs) := by
  cases fs with
  | nil => exact h
  | cons g fs =>
    intro f' hf' htrusted
    cases List.mem_singleton.mp hf'
    rw [atoms_or] at htrusted
    exact .or (List.cons_ne_nil _ _) fun f'' hf'' => h f'' hf'' fun text htext =>
      htrusted text (mem_atoms hf'' htext)

/-- What the program writes is a condition. -/
theorem isCondition_of_contained {name text : String} {condition : Condition} {texts : List String}
    (hc : condition.contained = true) (h : attributeClause e name condition = .ok texts)
    (htext : text ∈ texts) : ∃ as, IsCondition text as := by
  by_cases hs : condition.structured = true
  · rw [attributeClause_of_structured hs] at h
    cases ha : e.attribute? name with
    | none =>
      rw [ha] at h
      cases h
      cases htext
    | some a =>
      rw [ha, Option.elim_some, map_eq_ok_iff] at h
      obtain ⟨text', htext', rfl⟩ := h
      cases List.mem_singleton.mp htext
      obtain ⟨atom, -, hread⟩ := reads_conditionClause hs htext'
      obtain ⟨f, hf⟩ := IsCondition.of_readsAtom hread
      exact ⟨_, hf⟩
  -- Of the conditions that do not compare values, a pattern without a quote is contained.
  · cases condition with
    | equals v | operator op => exact absurd hc hs
    | pattern p =>
      cases h
      cases List.mem_singleton.mp htext
      have hquote : '\'' ∉ p.source.toList := by simpa [Condition.contained] using hc
      obtain ⟨f, hf⟩ := IsCondition.of_pattern name hquote
      exact ⟨_, hf⟩

theorem sound_attribute {name : String} {condition : Condition} {texts : List String}
    (h : attributeClause e name condition = .ok texts) :
    Sound (texts.map fun text =>
      .atom (if condition.contained then .written text else .trusted text)) := by
  intro f hf htrusted
  obtain ⟨text, htext, rfl⟩ := List.mem_map.mp hf
  cases hc : condition.contained with
  | false =>
    rw [hc] at htrusted
    exact legible_atom (htrusted text (by simp [Formula.atoms, Formula.fold]))
  | true => exact legible_atom (isCondition_of_contained hc h htext)

-- One case for each way a predicate is put together.
mutual

theorem sound_pieces : (p : Predicate) → {fs : List (Formula Piece)} → pieces e p = .ok fs → Sound fs
  | .raw _, _, h | .template .., _, h => by
    cases h
    exact sound_trusted _
  | .all cs, _, h => sound_piecesOfAll cs h

theorem sound_piecesOfAll : (cs : List Clause) → {fs : List (Formula Piece)} →
    piecesOfAll e cs = .ok fs → Sound fs
  | [], _, h => by
    cases h
    intro f hf
    cases hf
  | c :: cs, _, h => by
    simp only [piecesOfAll, bind_eq_ok_iff] at h
    obtain ⟨first, hfirst, rest, hrest, h⟩ := h
    cases h
    exact sound_append (sound_piecesOf c hfirst) (sound_piecesOfAll cs hrest)

theorem sound_piecesOf : (c : Clause) → {fs : List (Formula Piece)} → piecesOf e c = .ok fs → Sound fs
  | .attribute _ _, _, h => by
    simp only [piecesOf, map_eq_ok_iff] at h
    obtain ⟨texts, htexts, rfl⟩ := h
    exact sound_attribute htexts
  | .any branches, _, h => by
    simp only [piecesOf, map_eq_ok_iff] at h
    obtain ⟨found, hfound, rfl⟩ := h
    exact sound_choicePieces (sound_piecesOfBranches branches hfound)
  | .arbitrary _, _, h => by
    cases h
    exact sound_trusted _

theorem sound_piecesOfBranches : (bs : List Predicate) → {fs : List (Formula Piece)} →
    piecesOfBranches e bs = .ok fs → Sound fs
  | [], _, h => by
    cases h
    intro f hf
    cases hf
  | b :: bs, _, h => by
    simp only [piecesOfBranches, bind_eq_ok_iff] at h
    obtain ⟨first, hfirst, rest, hrest, h⟩ := h
    cases h
    exact sound_append (sound_branchPieces (sound_pieces b hfirst)) (sound_piecesOfBranches bs hrest)

end

end Pieces

/-! ## Pieces as operands -/

/-- All trusted text among some pieces is a condition by itself. -/
def TrustedConditions (fs : List (Formula Piece)) : Prop :=
  ∀ text, .trusted text ∈ (Formula.and fs).atoms → ∃ as, IsCondition text as

/-- What some pieces say together, each of them as one operand. -/
def asOperands (fs : List (Formula Piece)) : Formula (List Token) := (Formula.and fs).parts.grafted

/-- A piece with an alternative is joined to another one with an `AND` and no bracket. -/
def Exposes (fs : List (Formula Piece)) : Prop := (Formula.and fs).parts.Exposed

section Operands

variable {e : Entity} {p : Predicate} {fs gs : List (Formula Piece)}

theorem TrustedConditions.of_subset (h : TrustedConditions gs) (hsub : fs ⊆ gs) :
    TrustedConditions fs := by
  intro text htext
  rw [atoms_and] at htext
  obtain ⟨atoms, hatoms, htext⟩ := List.mem_flatten.mp htext
  obtain ⟨f, hf, rfl⟩ := List.mem_map.mp hatoms
  refine h text ?_
  rw [atoms_and]
  exact mem_atoms (hsub hf) htext

theorem legible_of_pieces (h : pieces e p = .ok fs) (ht : TrustedConditions fs) :
    ∀ f ∈ fs, f.Legible := by
  intro f hf
  refine sound_pieces p h f hf fun text htext => ht text ?_
  rw [atoms_and]
  exact mem_atoms hf htext

theorem clauses_of_pieces (h : pieces e p = .ok fs) : clauses e p = .ok (fs.map Formula.text) := by
  rw [← text_pieces, h]
  rfl

theorem holds_asOperands {v : List Token → Prop} :
    (asOperands fs).Holds v ↔ ∀ f ∈ fs, f.parts.grafted.Holds v := by
  rw [asOperands, parts_and, Formula.grafted_and, Formula.holds_all, List.map_map, List.forall_mem_map]
  rfl

/-- Joined with `AND`, pieces are true wherever they are as operands. -/
theorem exists_read_of_pieces (h : pieces e p = .ok fs) (ht : TrustedConditions fs) (hne : fs ≠ []) :
    ∃ as, Outline.read (conjunction (fs.map Formula.text)).toList = some as
      ∧ (∀ v, (asOperands fs).Holds v → as.formula.Holds v)
      ∧ (as.formula.Alike (asOperands fs) ↔ ¬ Exposes fs) := by
  have hlegible := legible_of_pieces h ht
  have hproper : (Formula.and fs).parts.Proper := (Formula.Legible.and hne hlegible).proper
  obtain ⟨as, hread, hformula⟩ := exists_read_conjunction hlegible hne
  refine ⟨as, hread, ?_, ?_⟩
  · intro v hv
    rw [hformula]
    exact Formula.holds_spliced_of_grafted hproper hv
  · rw [hformula]
    exact Formula.alike_iff_not_exposed hproper

theorem piecesOfAll_append (cs cs' : List Clause) : piecesOfAll e (cs ++ cs') = (do
    let first ← piecesOfAll e cs
    let rest ← piecesOfAll e cs'
    return first ++ rest) := by
  induction cs with
  | nil => cases h : piecesOfAll e cs' <;> simp [h, piecesOfAll, bind, Except.bind, pure, Except.pure]
  | cons c cs ih =>
    rw [List.cons_append, piecesOfAll, piecesOfAll, ih]
    cases piecesOf e c <;> cases piecesOfAll e cs <;> cases piecesOfAll e cs' <;>
      simp [bind, Except.bind, pure, Except.pure]

/-- Without one of the clauses, the pieces of the others are left. -/
theorem exists_pieces_without {before after : List Clause} {c : Clause}
    (h : pieces e (.all (before ++ c :: after)) = .ok fs) :
    ∃ gs, pieces e (.all (before ++ after)) = .ok gs ∧ gs ⊆ fs := by
  rw [pieces, piecesOfAll_append] at h
  simp only [piecesOfAll, bind_eq_ok_iff] at h
  obtain ⟨front, hfront, rest, ⟨own, -, back, hback, hrest⟩, h⟩ := h
  cases hrest
  cases h
  refine ⟨front ++ back, ?_, ?_⟩
  · rw [pieces, piecesOfAll_append, hfront, hback]
    rfl
  · intro f hf
    rcases List.mem_append.mp hf with hf | hf
    · exact List.mem_append_left _ hf
    · exact List.mem_append_right _ (List.mem_append_right _ hf)

end Operands

/-- The clauses of a predicate, joined with `AND`, are a condition that is true wherever the predicate is
with each trusted text as one operand. They are read as just that, up to brackets that make no difference,
exactly if no trusted text with an alternative is joined to something without brackets. Then a clause more
in a conjunction selects no more rows. -/
theorem reads_asOperands_iff (e : Entity) (p : Predicate) (fs : List (Formula Piece))
    (h : pieces e p = .ok fs) (ht : TrustedConditions fs) (hne : fs ≠ []) :
    clauses e p = .ok (fs.map Formula.text)
      ∧ ∃ as, Outline.read (conjunction (fs.map Formula.text)).toList = some as
        ∧ (∀ v, (asOperands fs).Holds v → as.formula.Holds v)
        ∧ (as.formula.Alike (asOperands fs) ↔ ¬ Exposes fs)
        ∧ (¬ Exposes fs → ∀ before c after, p = .all (before ++ c :: after) →
          ∃ texts, clauses e (.all (before ++ after)) = .ok texts ∧ (texts = []
            ∨ ∃ bs, Outline.read (conjunction texts).toList = some bs
              ∧ ∀ v, as.formula.Holds v → bs.formula.Holds v)) := by
  obtain ⟨as, hread, hmeant, halike⟩ := exists_read_of_pieces h ht hne
  refine ⟨clauses_of_pieces h, as, hread, hmeant, halike, ?_⟩
  rintro hexposes before c after rfl
  -- A row that is selected is true of every piece, and so of those that are left.
  obtain ⟨gs, hgs, hsub⟩ := exists_pieces_without h
  refine ⟨_, clauses_of_pieces hgs, or_iff_not_imp_left.mpr fun htexts => ?_⟩
  have hne' : gs ≠ [] := by simpa using htexts
  obtain ⟨bs, hread', hmeant', -⟩ := exists_read_of_pieces hgs (ht.of_subset hsub) hne'
  refine ⟨bs, hread', fun v hv => hmeant' v ?_⟩
  rw [(halike.mpr hexposes).holds_iff, holds_asOperands] at hv
  exact holds_asOperands.mpr fun f hf => hv f (hsub hf)

def titlePiece : Piece := .written "\"title\" = E'a'"

/-- A condition with an alternative, written elsewhere. -/
def pinnedPiece : Piece := .trusted "pinned OR body = 'b'"

/-- The operand that the comparison of the title is. -/
def titleOperand : List Token := [.identifier "title", .operator "=", .constant "a"]

/-- The second operand of the condition written elsewhere. -/
def bodyOperand : List Token := [.word "body", .operator "=", .constant "b"]

theorem isCondition_title : IsCondition titlePiece.text [[.atom titleOperand]] := by
  have hequals : Lexes "= E'a'".toList [.operator "=", .constant "a"] :=
    @lexes_operator "=" _ _ (fun _ => rfl) (by decide) (lexes_constantChars ['a'])
  have hclause : Lexes "\"title\" = E'a'".toList titleOperand :=
    (lexes_identifierChars "title".toList).blank hequals (opens_cons _ (by decide) (by decide))
  exact ⟨_, hclause.cuts, _, rfl, rfl, rfl⟩

theorem isCondition_pinned :
    IsCondition pinnedPiece.text [[.atom [.word "pinned"]], [.atom bodyOperand]] := by
  have hequals : Lexes "= 'b'".toList [.operator "=", .constant "b"] :=
    @lexes_operator "=" _ _ (fun _ => rfl) (by decide) (@lexes_plainConstant ['b'] (by decide))
  have hbody : Lexes "body = 'b'".toList bodyOperand :=
    @Lexes.keyword "body" "body" _ _ (by decide) hequals (opens_cons _ (by decide) (by decide))
  have hpinned : Lexes "pinned".toList [.word "pinned"] := lexes_keyword (by decide)
  have hleft : Outlines [.word "pinned"] [[.atom [.word "pinned"]]] := ⟨_, rfl, rfl, rfl⟩
  have hright : Outlines bodyOperand [[.atom bodyOperand]] := ⟨_, rfl, rfl, rfl⟩
  have htext : pinnedPiece.text = "pinned" ++ " OR " ++ "body = 'b'" := by decide
  rw [htext]
  exact IsCondition.or ⟨_, hpinned.cuts, hleft⟩ ⟨_, hbody.cuts, hright⟩

theorem alternatives_title : titlePiece.alternatives = [[.atom titleOperand]] := by
  rw [Piece.alternatives, isCondition_title.read_eq]
  rfl

theorem trustedConditions_of_atoms {fs : List (Formula Piece)}
    (h : (Formula.and fs).atoms = [titlePiece, pinnedPiece]) : TrustedConditions fs := by
  intro text htext
  have htext : Piece.trusted text = pinnedPiece := by simpa [h, titlePiece] using htext
  have hcondition := isCondition_pinned
  rw [← htext] at hcondition
  exact ⟨_, hcondition⟩

/-- In brackets, trusted text with an alternative is one operand. -/
theorem bracketed_reads_asOperands :
    let note : Entity := .declare "note" none [.plain "title" .string] []
    let p : Predicate := .all [.attribute "title" (.equals (.text "a")), .any [.raw pinnedPiece.text]]
    let fs : List (Formula Piece) := [.atom titlePiece, .or [.atom pinnedPiece]]
    pieces note p = .ok fs ∧ TrustedConditions fs ∧ fs ≠ []
      ∧ clauses note p = .ok ["\"title\" = E'a'", "(pinned OR body = 'b')"]
      ∧ ∃ as, Outline.read (conjunction (fs.map Formula.text)).toList = some as
        ∧ as.formula.Alike (asOperands fs) := by
  intro note p fs
  have hpieces : pieces note p = .ok fs := rfl
  have htrusted : TrustedConditions fs := trustedConditions_of_atoms rfl
  have hexposes : ¬ Exposes fs := by
    have hparts : (Formula.and fs).parts
        = .and [.atom titlePiece.alternatives, .or [.atom pinnedPiece.alternatives]] := rfl
    rw [Exposes, hparts, alternatives_title]
    simp
  obtain ⟨hclauses, as, hread, -, halike, -⟩ :=
    reads_asOperands_iff note p fs hpieces htrusted (List.cons_ne_nil _ _)
  exact ⟨hpieces, htrusted, List.cons_ne_nil _ _, hclauses, as, hread, halike.mpr hexposes⟩

/-- Beside another clause it is not. The statement selects a row with another title, which the clause on the
title alone rules out. -/
theorem exposed_selects_more :
    let note : Entity := .declare "note" none [.plain "title" .string] []
    let p : Predicate := .all [.attribute "title" (.equals (.text "a")), .arbitrary pinnedPiece.text]
    let fs : List (Formula Piece) := [.atom titlePiece, .atom pinnedPiece]
    pieces note p = .ok fs ∧ TrustedConditions fs
      ∧ clauses note p = .ok ["\"title\" = E'a'", "pinned OR body = 'b'"]
      ∧ ∃ as bs, Outline.read "\"title\" = E'a' AND pinned OR body = 'b'".toList = some as
        ∧ Outline.read "\"title\" = E'a'".toList = some bs
        ∧ ¬ as.formula.Alike (asOperands fs)
        ∧ ∃ v, as.formula.Holds v ∧ ¬ (asOperands fs).Holds v ∧ ¬ bs.formula.Holds v := by
  intro note p fs
  have hread := (isCondition_title.and isCondition_pinned).read_eq
  have htext : titlePiece.text ++ " AND " ++ pinnedPiece.text
      = "\"title\" = E'a' AND pinned OR body = 'b'" := by decide
  rw [htext] at hread
  -- A row with another title, which is not pinned.
  let v : List Token → Prop := fun operand => operand = bodyOperand
  have hselected : (Alternatives.formula
      [[.atom titleOperand, .atom [.word "pinned"]], [.atom bodyOperand]]).Holds v := by
    rw [Alternatives.holds_formula]
    refine ⟨[.atom bodyOperand], List.mem_cons_of_mem _ List.mem_cons_self, ?_⟩
    exact List.forall_mem_singleton.mpr rfl
  have htitle : ¬ (Alternatives.formula [[.atom titleOperand]]).Holds v := by
    have hne : titleOperand ≠ bodyOperand := by decide
    exact hne
  have hmeant : ¬ (asOperands fs).Holds v := by
    intro hholds
    have hfirst := holds_asOperands.mp hholds (.atom titlePiece) List.mem_cons_self
    have hgrafted : (Formula.atom titlePiece).parts.grafted = titlePiece.alternatives.formula := rfl
    rw [hgrafted, alternatives_title] at hfirst
    exact htitle hfirst
  exact ⟨rfl, trustedConditions_of_atoms rfl, rfl, _, _, hread, isCondition_title.read_eq,
    fun halike => hmeant (halike.holds_iff.mp hselected), v, hselected, hmeant, htitle⟩

end EntityStore
