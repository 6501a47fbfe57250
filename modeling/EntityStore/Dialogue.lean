import EntityStore.Row

/-!
# Dialogues with a database

Everything this library does with a database is a dialogue: it sends a statement, sees the answer,
and goes on from there; in between it may report an error to whoever listens; in the end it has a
result. A dialogue is data. What it will say next depends on nothing but the answers it has had, so
it can be run against any database, looked at statement by statement, or run side by side with
others, and what is true of it is true whatever answers.

`Dialogue.run` runs one against an executor, which is a function from a state and a statement to an
answer and the next state.
-/

set_option autoImplicit false

namespace EntityStore

/-- A course of statements and answers that ends in a result. -/
inductive Dialogue (α : Type) : Type where
  | done (result : α)
  | send (sql : String) (next : Answer → Dialogue α)
  | report (e : Error) (next : Dialogue α)

/-- What answers statements: an answer and a next state for each state and statement. -/
abbrev Executor (σ : Type) := σ → String → Answer × σ

inductive Event where
  | sent (sql : String) (answer : Answer)
  | reported (e : Error)

/-- A dialogue that has been run: its result, what happened, and the state the executor is left
in. -/
structure Run (σ α : Type) where
  result : α
  events : List Event
  state : σ

namespace Dialogue

/-- Goes on with what the result calls for. -/
def bind {α β : Type} : Dialogue α → (α → Dialogue β) → Dialogue β
  | .done a, f => f a
  | .send sql next, f => .send sql fun answer => (next answer).bind f
  | .report e next, f => .report e (next.bind f)

instance : Monad Dialogue where
  pure := .done
  bind := Dialogue.bind

/-- Sends one statement; its answer is the result. -/
def ask (sql : String) : Dialogue Answer := .send sql .done

def tell (e : Error) : Dialogue Unit := .report e (.done ())

def run {σ α : Type} (executor : Executor σ) : Dialogue α → σ → Run σ α
  | .done a, s => ⟨a, [], s⟩
  | .send sql next, s =>
    let (answer, s) := executor s sql
    let rest := (next answer).run executor s
    { rest with events := .sent sql answer :: rest.events }
  | .report e next, s =>
    let rest := next.run executor s
    { rest with events := .reported e :: rest.events }

/-! ## Laws -/

theorem bind_done {α : Type} (d : Dialogue α) : d.bind .done = d := by
  induction d with
  | done a => rfl
  | send sql next ih => simp only [bind]; exact congrArg _ (funext ih)
  | report e next ih => simp only [bind]; exact congrArg _ ih

theorem bind_assoc {α β γ : Type} (d : Dialogue α) (f : α → Dialogue β) (g : β → Dialogue γ) :
    (d.bind f).bind g = d.bind fun a => (f a).bind g := by
  induction d with
  | done a => rfl
  | send sql next ih => simp only [bind]; exact congrArg _ (funext ih)
  | report e next ih => simp only [bind]; exact congrArg _ ih

instance : LawfulMonad Dialogue := LawfulMonad.mk' Dialogue bind_done (fun _ _ => rfl) bind_assoc

/-- Running one dialogue after another is running the first, then the second from where the first
left the executor. -/
theorem run_bind {σ α β : Type} (executor : Executor σ) (d : Dialogue α) (f : α → Dialogue β)
    (s : σ) :
    (d.bind f).run executor s =
      let first := d.run executor s
      let second := (f first.result).run executor first.state
      ⟨second.result, first.events ++ second.events, second.state⟩ := by
  induction d generalizing s with
  | done a => simp [bind, run]
  | send sql next ih => simp [bind, run, ih]
  | report e next ih => simp [bind, run, ih]

end Dialogue

namespace Run

variable {σ α : Type}

def statements (r : Run σ α) : List String :=
  r.events.filterMap fun
    | .sent sql _ => some sql
    | .reported _ => none

def reports (r : Run σ α) : List Error :=
  r.events.filterMap fun
    | .sent .. => none
    | .reported e => some e

end Run

end EntityStore
