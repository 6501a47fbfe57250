import EntityStore.Proofs.Dialogue.Course
import EntityStore.Reconcile

/-!
# The parts of a reconciliation

A reconciliation is put together from single statements that change the schema, each of which may
fail. Whatever becomes of them, certain statements are sent, in order; every failure is reported
once, and nothing else is; and the last failure is the result. This is said of the courses of each
part (`Does`), so it holds for any answers.
-/

set_option autoImplicit false

namespace EntityStore

open Dialogue (Course)

/-! ## Nothing is lost and nothing is made up -/

/-- Whether the failures among some events were reported, each once and nothing else, and the last
of them is the result. -/
structure Accounted (events : List Event) (result : Option Error) : Prop where
  reported : reports events = failures events
  result : result = (failures events).getLast?

namespace Accounted

variable {first rest : List Event} {a b : Option Error} {sql : String} {err : Error}

theorem nil : Accounted [] none := ⟨rfl, rfl⟩

/-- Of two things one after the other, the later failure is the result. -/
theorem append (h : Accounted first a) (h' : Accounted rest b) :
    Accounted (first ++ rest) (b <|> a) := by
  refine ⟨?_, ?_⟩
  · rw [reports_append, failures_append, h.reported, h'.reported]
  · rw [failures_append, List.getLast?_append, h.result, h'.result, Option.orElse_eq_orElse,
      Option.orElse_eq_or]

theorem answered (sql : String) (rows : List Row) : Accounted [.sent sql (.ok rows)] none :=
  ⟨rfl, rfl⟩

theorem failed (sql : String) (err : Error) :
    Accounted [.sent sql (.error err), .reported err] (some err) := ⟨rfl, rfl⟩

/-- An answer makes no difference to what comes after it. -/
theorem answered_cons (sql : String) (rows : List Row) (h : Accounted rest b) :
    Accounted (.sent sql (.ok rows) :: rest) b := by
  have happend := (answered sql rows).append h
  rwa [Option.orElse_eq_orElse, Option.orElse_eq_or, Option.or_none] at happend

end Accounted

/-! ## What is sent -/

def statementsOf (called : List (String × Answer)) : List String := called.map Prod.fst

theorem Run.statements_eq {σ α : Type} (r : Run σ α) : r.statements = statementsOf (calls r.events) := by
  rw [statementsOf, calls, List.map_filterMap, Run.statements]
  congr 1
  funext event
  cases event <;> rfl

namespace Reconcile

variable {events : List Event} {result : Option Error}

/-- A part of a reconciliation that sends certain statements, whatever becomes of them, and accounts
for their failures. -/
structure Does (statements : List String) (events : List Event) (result : Option Error) : Prop where
  sent : statementsOf (calls events) = statements
  accounted : Accounted events result

theorem Does.append {statements statements' : List String} {first rest : List Event}
    {a b : Option Error} (h : Does statements first a) (h' : Does statements' rest b) :
    Does (statements ++ statements') (first ++ rest) (b <|> a) := by
  refine ⟨?_, h.accounted.append h'.accounted⟩
  rw [calls_append, statementsOf, List.map_append, ← h.sent, ← h'.sent]
  rfl

theorem does_attempt {sql : String} (h : Course (attempt sql) events result) :
    Does [sql ++ ";"] events result := by
  obtain ⟨answer, rest, rfl, hrest⟩ := h.of_ask
  cases answer with
  | ok rows =>
    obtain ⟨rfl, rfl⟩ := hrest.of_pure
    exact ⟨rfl, .answered _ rows⟩
  | error err =>
    obtain ⟨rest, rfl, hlast⟩ := hrest.of_tell
    obtain ⟨rfl, rfl⟩ := hlast.of_pure
    exact ⟨rfl, .failed _ err⟩

theorem does_applyColumns {e : Entity} {changes : List ColumnChange}
    (h : Course (applyColumns e changes) events result) :
    Does ((e.alterTable? changes).toList.map (· ++ ";")) events result := by
  unfold applyColumns at h
  cases hsql : e.alterTable? changes with
  | none =>
    rw [hsql] at h
    obtain ⟨rfl, rfl⟩ := h.of_pure
    exact ⟨rfl, .nil⟩
  | some sql =>
    rw [hsql] at h
    exact does_attempt h

/-- Every index change is sent, whatever becomes of those before it. -/
theorem does_applyIndexes {changes : List IndexChange}
    (h : Course (applyIndexes changes) events result) :
    Does (changes.map fun change => change.text ++ ";") events result := by
  induction changes generalizing events result with
  | nil =>
    obtain ⟨rfl, rfl⟩ := h.of_pure
    exact ⟨rfl, .nil⟩
  | cons change changes ih =>
    obtain ⟨first, more, a, rfl, hfirst, hmore⟩ := h.of_bind
    obtain ⟨rest, last, b, rfl, hrest, hlast⟩ := hmore.of_bind
    obtain ⟨rfl, rfl⟩ := hlast.of_pure
    rw [List.append_nil]
    exact (does_attempt hfirst).append (ih hrest)

end Reconcile

end EntityStore
