import EntityStore.Command.Arguments
import EntityStore.Command.Listing
import EntityStore.Reconcile
import EntityStore.Server.Endpoint
import EntityStore.Settings.Basic
import EntityStore.Store

/-!
# Running a command

A command comes to an outcome: what it prints, the error it ends with, if any, and the status that
whoever called it sees. Statements and answers apart it has no effects, so it is a function of the
command line, the text of the settings file and the endpoint it connects to.

Settings are read first. A command that needs the database registers the declared entities, says so
if there are none, and connects; only then is a filter looked at. A command that needs none never
connects.
-/

set_option autoImplicit false

namespace EntityStore.Command

/-- What is known of the settings file that was asked for. -/
inductive SettingsFile where
  | missing
  | unreadable (reason : String)
  | text (content : String)

/-- What a command comes to. -/
structure Outcome where
  /-- What it prints, line ends included. -/
  output : String
  /-- The error it ends with. -/
  error : Option String
  status : Nat
  deriving DecidableEq

namespace Outcome

def success (output : String) : Outcome := ⟨output, none, 0⟩

def failure (output error : String) : Outcome := ⟨output, some error, 1⟩

end Outcome

/-- The settings of an invocation: those of its file, or the unspecified ones, with its address in
the place of theirs. -/
def settings (i : Invocation) (file : SettingsFile) : Except String Settings := do
  let s ← match i.config with
    | none => pure Settings.unspecified
    | some path =>
      match file with
      | .missing => .error ("config file " ++ path ++ " not found")
      | .unreadable reason => .error ("reading " ++ path ++ ": " ++ (Error.file reason).message)
      | .text content =>
        match Settings.ofText content with
        | .ok s => pure s
        | .error e => .error ("reading " ++ path ++ ": " ++ e.message)
  return match i.address with
    | some address => s.withAddress address
    | none => s

def registry (s : Settings) : Except String Registry :=
  match Registry.empty.registerAll s.entities with
  | (r, none) => .ok r
  | (_, some e) => .error e.message

def filter (text : String) : Except String Filter :=
  match Document.ofText? text with
  | none => .error "filter is not valid JSON"
  | some d =>
    match Filter.ofDocument d with
    | .ok f => .ok f
    | .error e => .error e.message

def line (text : String) : String := text ++ "\n"

/-! ## The commands -/

/-- Shows the statement that a filter compiles to. -/
def compile (s : Settings) (entity filterText : String) : Outcome :=
  let statement : Except String String := do
    let r ← registry s
    let f ← filter filterText
    match (do let e ← r.entity entity; Sql.select e f : Except Error String) with
    | .ok sql => .ok sql
    | .error e => .error e.message
  match statement with
  | .ok sql => .success (line "Generated SQL:" ++ line sql)
  | .error e => .failure "" e

def showRows (e : Entity) (rows : List Row) (format : Format) : String :=
  if rows.isEmpty then line "(no rows)"
  else match format with
    | .json => line (Document.indented 0 (.list (rows.map .object)))
    | .table =>
      String.join ((tableLines e.columnNames rows).map line)
        ++ line ("→ " ++ Numeral.ofNat rows.length ++ " row(s)")

def find (r : Registry) (entity filterText : String) (format : Format) :
    Dialogue (Except String String) :=
  match filter filterText with
  | .error e => return .error e
  | .ok f => do
    match ← Store.findAll r entity f with
    | .error e => return .error e.message
    | .ok rows =>
      match r.entity entity with
      | .error e => return .error e.message
      | .ok e => return .ok (showRows e rows format)

/-- One entity's part of a plan. -/
def showPlan (entity : String) (p : Plan) : String :=
  if p.isEmpty then line ("✓ " ++ entity)
  else
    let label := match p with
      | .create .. => "create"
      | .alter .. => "alter"
    line ("→ " ++ entity ++ " (" ++ label ++ ")")
      ++ String.join (p.statements.map fun sql => line ("    " ++ sql ++ ";"))

/-- How many statements are pending in a plan. -/
def pending (plans : List (String × Plan)) : Nat :=
  (plans.flatMap fun p => if p.2.isEmpty then [] else p.2.statements).length

def plan (r : Registry) : Dialogue (Except String String) := do
  match ← Reconcile.plan r with
  | .error e => return .error e.message
  | .ok plans =>
    return .ok (String.join (plans.map fun p => showPlan p.1 p.2) ++ line ""
      ++ line (Numeral.ofNat (pending plans) ++ " pending statement(s)"))

def migrate (r : Registry) : Dialogue (Except String String) := do
  match ← Reconcile.all r with
  | some e => return .error e.message
  | none => return .ok (line ("✓ " ++ Numeral.ofNat r.size ++ " entit(ies) reconciled"))

def check (r : Registry) : Dialogue (Except String Bool) := do
  match ← Reconcile.isCurrent r with
  | .error e => return .error e.message
  | .ok current => return .ok current

/-! ## The whole command -/

/-- What is printed before connecting. -/
def notice (r : Registry) : String :=
  if r.entities.isEmpty then line "⚠ No entities declared in the config file" else ""

/-- The outcome of a dialogue over an open connection, after some output. -/
def converse {σ α : Type} (before : String) (session : Endpoint.Session σ)
    (d : Dialogue (Except String α)) (finish : α → Outcome) : Outcome :=
  match (d.run session.executor session.state).result with
  | .ok a => let o := finish a; { o with output := before ++ o.output }
  | .error e => .failure before e

/-- What a task with a database comes to over an open connection, after some output. -/
def served {σ : Type} (r : Registry) (before : String) (session : Endpoint.Session σ) :
    DatabaseTask → Outcome
  | .find entity filterText format =>
    converse before session (find r entity filterText format) .success
  | .plan => converse before session (plan r) .success
  | .migrate => converse before session (migrate r) .success
  | .check => converse before session (check r) fun current =>
    if current then .success (line "✓ Schema is current")
    else ⟨line "✗ Schema differs; run `pgadapter plan`", none, 2⟩

/-- What a task with a database comes to. -/
def connected {σ : Type} (s : Settings) (endpoint : Endpoint σ) (task : DatabaseTask) : Outcome :=
  match registry s with
  | .error e => .failure "" e
  | .ok r =>
    match endpoint.connect s.connection with
    | .error e => .failure (notice r) ("connecting to the database: " ++ e.message)
    | .ok session => served r (notice r) session task

/-- Runs an invocation with a settings file against an endpoint. -/
def run {σ : Type} (i : Invocation) (file : SettingsFile) (endpoint : Endpoint σ) : Outcome :=
  match settings i file with
  | .error e => .failure "" e
  | .ok s =>
    match i.task with
    | .compile entity filterText => compile s entity filterText
    | .database task => connected s endpoint task

/-- The outcome of a command line that asks for no task. -/
def unserved : Request → Outcome
  | .version => .success (line "pgadapter 0.1.0")
  | .help topic => .success topic.text
  | _ => ⟨"", some "usage", 2⟩

end EntityStore.Command
