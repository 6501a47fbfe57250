import EntityStore.Dialogue

/-!
# The courses a dialogue can take

What a dialogue does depends on the answers it gets and on nothing else. A course of a dialogue is
what happens in it for some answers, whoever gives them: an executor alone with it, an executor that
serves others in between, or one that remembers everything it was ever asked. So what holds of every
course holds of every run, and of the part a dialogue has in a run with others.
-/

set_option autoImplicit false

namespace EntityStore

/-! ## What events say -/

namespace Event

/-- The statement and its answer, if the event is one. -/
def call? : Event → Option (String × Answer)
  | .sent sql answer => some (sql, answer)
  | .reported _ => none

def failure? : Event → Option Error
  | .sent _ (.error e) => some e
  | .sent _ (.ok _) | .reported _ => none

def report? : Event → Option Error
  | .sent .. => none
  | .reported e => some e

end Event

/-- The statements of some events with their answers, in order. -/
def calls (events : List Event) : List (String × Answer) := events.filterMap Event.call?

def failures (events : List Event) : List Error := events.filterMap Event.failure?

def reports (events : List Event) : List Error := events.filterMap Event.report?

@[simp] theorem calls_sent (sql : String) (answer : Answer) (events : List Event) :
    calls (.sent sql answer :: events) = (sql, answer) :: calls events := rfl

theorem calls_append (first rest : List Event) :
    calls (first ++ rest) = calls first ++ calls rest := List.filterMap_append

theorem failures_append (first rest : List Event) :
    failures (first ++ rest) = failures first ++ failures rest := List.filterMap_append

theorem reports_append (first rest : List Event) :
    reports (first ++ rest) = reports first ++ reports rest := List.filterMap_append

namespace Dialogue

variable {σ α β : Type} {exec : Executor σ}

/-- What happens in a dialogue for some answers, and what comes of it. -/
inductive Course : Dialogue α → List Event → α → Prop where
  | done (a : α) : Course (.done a) [] a
  | send {sql : String} {next : Answer → Dialogue α} {events : List Event} {a : α} (answer : Answer)
    (rest : Course (next answer) events a) :
    Course (.send sql next) (.sent sql answer :: events) a
  | report {e : Error} {next : Dialogue α} {events : List Event} {a : α}
    (rest : Course next events a) : Course (.report e next) (.reported e :: events) a

/-- A run is the course for the answers of the executor. -/
theorem course_run (d : Dialogue α) (s : σ) :
    Course d (d.run exec s).events (d.run exec s).result := by
  induction d generalizing s with
  | done a => exact .done a
  | send sql next ih => exact .send _ (ih _ _)
  | report e next ih => exact .report (ih s)

namespace Course

variable {d : Dialogue α} {f : α → Dialogue β} {events : List Event} {a a' : α} {b : β} {sql : String}

theorem of_pure (h : Course (pure a) events a') : events = [] ∧ a' = a := by
  cases h with
  | done => exact ⟨rfl, rfl⟩

theorem of_bind (h : Course (d >>= f) events b) :
    ∃ first rest a, events = first ++ rest ∧ Course d first a ∧ Course (f a) rest b := by
  induction d generalizing events with
  | done a => exact ⟨[], events, a, rfl, .done a, h⟩
  | send sql next ih =>
    cases h with
    | send answer h =>
      obtain ⟨first, rest, a, rfl, hfirst, hrest⟩ := ih answer h
      exact ⟨_ :: first, rest, a, rfl, .send answer hfirst, hrest⟩
  | report e next ih =>
    cases h with
    | report h =>
      obtain ⟨first, rest, a, rfl, hfirst, hrest⟩ := ih h
      exact ⟨_ :: first, rest, a, rfl, .report hfirst, hrest⟩

theorem of_ask {f : Answer → Dialogue β} (h : Course (ask sql >>= f) events b) :
    ∃ answer rest, events = .sent sql answer :: rest ∧ Course (f answer) rest b := by
  cases h with
  | send answer h => exact ⟨answer, _, rfl, h⟩

theorem of_tell {e : Error} {f : Unit → Dialogue β} (h : Course (tell e >>= f) events b) :
    ∃ rest, events = .reported e :: rest ∧ Course (f ()) rest b := by
  cases h with
  | report h => exact ⟨_, rfl, h⟩

end Course

end Dialogue

end EntityStore
