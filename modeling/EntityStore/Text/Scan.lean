/-!
# Scanners

A scanner takes something from the front of a text and leaves the rest, or takes nothing at all.
Readers of line-oriented notations are put together from scanners.

Repetition goes on only as long as each round leaves less than it was given. A scanner that takes
nothing therefore ends the repetition instead of running for ever, and no bound on the number of
rounds has to be guessed.
-/

set_option autoImplicit false

namespace EntityStore

/-- Takes something from the front of a text and leaves the rest. -/
abbrev Scan (α : Type) := List Char → Option (α × List Char)

namespace Scan

variable {α β : Type}

/-- Takes one character of a class. -/
def one (p : Char → Bool) : Scan Char
  | c :: cs => if p c then some (c, cs) else none
  | [] => none

/-- Takes a given text. -/
def exactly : List Char → Scan Unit
  | [], cs => some ((), cs)
  | w :: ws, c :: cs => if w = c then exactly ws cs else none
  | _ :: _, [] => none

/-- Takes the longest run of characters of a class, which may be empty. -/
def while_ (p : Char → Bool) : Scan (List Char) := fun cs => some (cs.span p)

/-- Takes the longest run of characters of a class, at least one. -/
def while1 (p : Char → Bool) : Scan (List Char) := fun cs =>
  match cs.span p with
  | ([], _) => none
  | taken => some taken

/-- What one scanner takes or, where it takes nothing, the other. -/
def or (s t : Scan α) : Scan α := fun cs => s cs <|> t cs

/-- What a scanner takes, if it takes anything. -/
def maybe (s : Scan α) : Scan (Option α) := fun cs =>
  match s cs with
  | some (a, rest) => some (some a, rest)
  | none => some (none, cs)

/-- What a scanner takes over and over, until it takes nothing more. -/
def many (s : Scan α) (cs : List Char) : Option (List α × List Char) :=
  match s cs with
  | some (a, rest) =>
    if rest.length < cs.length then (many s rest).map fun (as, rest) => (a :: as, rest)
    else some ([], cs)
  | none => some ([], cs)
termination_by cs.length

/-- Two scanners one after the other. -/
def seq (s : Scan α) (t : Scan β) : Scan (α × β) := fun cs => do
  let (a, cs) ← s cs
  let (b, cs) ← t cs
  return ((a, b), cs)

/-- One scanner and then another, of which only the second counts. -/
def before (s : Scan α) (t : Scan β) : Scan β := fun cs => do
  let (_, cs) ← s cs
  t cs

/-- One scanner and then another, of which only the first counts. -/
def after (s : Scan α) (t : Scan β) : Scan α := fun cs => do
  let (a, cs) ← s cs
  let (_, cs) ← t cs
  return (a, cs)

/-- What a scanner takes, changed. -/
def map (f : α → β) (s : Scan α) : Scan β := fun cs => (s cs).map fun (a, rest) => (f a, rest)

/-- What a scanner takes, if it is anything sensible. -/
def filterMap (f : α → Option β) (s : Scan α) : Scan β := fun cs => do
  let (a, rest) ← s cs
  let b ← f a
  return (b, rest)

/-- What a scanner takes between two others. -/
def between (opening : Scan α) (closing : Scan β) {γ : Type} (s : Scan γ) : Scan γ :=
  (before opening s).after closing

/-- One or more of something with something else between them. -/
def separated (separator : Scan α) (s : Scan β) : Scan (List β) := fun cs => do
  let (first, cs) ← s cs
  let (others, cs) ← many (before separator s) cs
  return (first :: others, cs)

end Scan

end EntityStore
