import EntityStore.Document.Token

/-!
# Reading documents

The tokens are put together by a machine that keeps the lists and objects still open on a stack.
It takes one step a token, so it needs no other reason to end, and a value it has completed goes
into the innermost open container whatever lies further out.

Containers may be nested a hundred and twenty-seven deep and no deeper (`Document.ofText?`); the
machine itself takes the bound as a parameter.
-/

set_option autoImplicit false

namespace EntityStore.Document

/-- An open container: what it holds so far, the last first, and for an object the key whose value
is being read. -/
inductive Frame where
  | list (items : List Document)
  | object (entries : List (String × Document)) (key : String)

/-- What the machine waits for. -/
inductive Awaiting where
  /-- A value. -/
  | value
  /-- A value, or the end of the list that was just opened. -/
  | itemOrEnd
  /-- A key, or the end of the object that was just opened. -/
  | keyOrEnd
  /-- A key, in an object with these entries. -/
  | key (entries : List (String × Document))
  /-- The colon after a key. -/
  | colon (entries : List (String × Document)) (key : String)
  /-- A comma, or the end of the innermost container, which holds this value last. -/
  | next (last : Document)

/-- The machine: the open containers, the innermost first, and what must come. -/
structure Machine where
  stack : List Frame
  awaiting : Awaiting

def Machine.start : Machine := ⟨[], .value⟩

/-- An object from entries in the order they were written: of a repeated key the first place and
the last value stay. -/
def ofEntries (entries : List (String × Document)) : Document :=
  .object (entries.foldl (fun es e => put e.1 e.2 es) [])

/-- A token where a value may begin. `depth` is the greatest number of open containers. -/
def Machine.value? (depth : Nat) (stack : List Frame) : Token → Option Machine
  | .null => some ⟨stack, .next .null⟩
  | .bool b => some ⟨stack, .next (.bool b)⟩
  | .number n => some ⟨stack, .next (.number n)⟩
  | .text s => some ⟨stack, .next (.text s)⟩
  | .openList => if stack.length < depth then some ⟨.list [] :: stack, .itemOrEnd⟩ else none
  | .openObject =>
    if stack.length < depth then some ⟨.object [] "" :: stack, .keyOrEnd⟩ else none
  | _ => none

def Machine.step? (depth : Nat) (m : Machine) (t : Token) : Option Machine :=
  match m.awaiting, m.stack, t with
  | .value, stack, t => value? depth stack t
  | .itemOrEnd, .list _ :: outer, .closeList => some ⟨outer, .next (.list [])⟩
  | .itemOrEnd, stack, t => value? depth stack t
  | .keyOrEnd, .object _ _ :: outer, .closeObject => some ⟨outer, .next (.object [])⟩
  | .keyOrEnd, stack, .text k => some ⟨stack, .colon [] k⟩
  | .key es, stack, .text k => some ⟨stack, .colon es k⟩
  | .colon es k, .object _ _ :: outer, .colon => some ⟨.object es k :: outer, .value⟩
  | .next d, .list ds :: outer, .comma => some ⟨.list (d :: ds) :: outer, .value⟩
  | .next d, .list ds :: outer, .closeList => some ⟨outer, .next (.list (d :: ds).reverse)⟩
  | .next d, .object es k :: outer, .comma =>
    some ⟨.object [] "" :: outer, .key ((k, d) :: es)⟩
  | .next d, .object es k :: outer, .closeObject =>
    some ⟨outer, .next (ofEntries ((k, d) :: es).reverse)⟩
  | _, _, _ => none

def Machine.run? (depth : Nat) : Machine → List Token → Option Machine
  | m, [] => some m
  | m, t :: ts => (m.step? depth t).bind fun m => run? depth m ts

/-- The document that a token sequence writes, with at most `depth` containers open at once. -/
def ofTokens? (depth : Nat) (ts : List Token) : Option Document :=
  match Machine.run? depth .start ts with
  | some ⟨[], .next d⟩ => some d
  | _ => none

/-- How many containers may be open at once in a text. -/
def maxDepth : Nat := 127

def ofText? (s : String) : Option Document := (tokens? s).bind (ofTokens? maxDepth)

end EntityStore.Document
