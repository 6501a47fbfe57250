import EntityStore.Address.Fault
import EntityStore.Text.Numeral

/-!
# Errors

Everything that can go wrong, one cause a constructor. The wording is in one place, `Error.message`,
and is a function of the cause: a kind, which contributes how the message begins, and a detail,
which contributes the rest. A schema that differs from its declaration is not among the causes; that
is an answer and not a failure.
-/

set_option autoImplicit false

namespace EntityStore

/-- Why an operation failed. Where the cause is a document or a value of the wrong shape, it
carries the text that the message quotes. -/
inductive Error where
  /-- The database, or the way to it, refused. -/
  | database (reason : String)
  /-- A count was asked for and no row came back. -/
  | countWithoutRow
  /-- A count came back that is no count. -/
  | countNotWhole
  /-- A row was inserted and its number did not come back. -/
  | insertWithoutId (entity : String)
  /-- No entity of this name is registered. -/
  | unknownEntity (name : String)
  /-- A row was named by an identifier that encodes as absent. -/
  | nullIdentifier (entity : String)
  /-- A record to be inserted or updated has no identifier. -/
  | upsertWithoutId (entity : String)
  /-- A record to be saved has no identifier. -/
  | saveWithoutId (entity : String)
  /-- A number of milliseconds that is no instant. -/
  | instantOutOfRange (ms : Int)
  /-- A text that is no date in any notation. -/
  | textNotDate (text : String)
  /-- A value that can be no date. -/
  | valueNotDate (shown : String)
  /-- A record was given as something other than an object. -/
  | recordNotObject (got : String)
  /-- A template does not begin with its text. -/
  | templateWithoutText
  /-- A predicate was given as something that can be none. -/
  | predicateUnreadable (got : String)
  /-- A range was given as something other than its two bounds. -/
  | rangeNotPair (got : String)
  /-- A pattern was given as something other than text. -/
  | patternNotText (got : String)
  /-- A filter was given as something other than an object. -/
  | filterNotObject
  /-- An index declares a kind there is not. -/
  | unknownIndexKind (index kind : String)
  /-- The settings cannot be read. -/
  | settingsUnreadable (reason : String)
  /-- The connection address cannot be read. -/
  | addressUnreadable (fault : Address.Fault)
  /-- A file cannot be read. -/
  | file (reason : String)
  deriving DecidableEq

/-- The kinds of error a host tells apart. -/
inductive Error.Kind where
  | transport
  | aggregate
  | unknownEntity
  | invalidValue
  | invalidFilter
  | configuration
  | file
  deriving DecidableEq

namespace Error

def kind : Error → Kind
  | .database _ => .transport
  | .countWithoutRow | .countNotWhole | .insertWithoutId _ => .aggregate
  | .unknownEntity _ => .unknownEntity
  | .nullIdentifier _ | .upsertWithoutId _ | .saveWithoutId _ | .instantOutOfRange _
  | .textNotDate _ | .valueNotDate _ | .recordNotObject _ => .invalidValue
  | .templateWithoutText | .predicateUnreadable _ | .rangeNotPair _ | .patternNotText _
  | .filterNotObject => .invalidFilter
  | .unknownIndexKind .. | .settingsUnreadable _ | .addressUnreadable _ => .configuration
  | .file _ => .file

/-- How a message of a kind begins. -/
def Kind.opening : Kind → String
  | .transport => "Database error: "
  | .aggregate => ""
  | .unknownEntity => "Unknown entity: "
  | .invalidValue => "Invalid value: "
  | .invalidFilter => "Invalid filter: "
  | .configuration => "Configuration error: "
  | .file => "IO error: "

def detail : Error → String
  | .database reason => reason
  | .countWithoutRow => "count: query returned no data"
  | .countNotWhole => "count: query did not return an integer"
  | .insertWithoutId entity => "create: " ++ entity ++ " insert returned no id"
  | .unknownEntity name => "'" ++ name ++ "'"
  | .nullIdentifier entity => entity ++ ": primary key must not be null"
  | .upsertWithoutId entity => entity ++ ": upsert requires an id"
  | .saveWithoutId entity => "save: " ++ entity ++ " record has no id"
  | .instantOutOfRange ms => "timestamp " ++ Numeral.ofInt ms ++ " out of range"
  | .textNotDate text => "cannot interpret '" ++ text ++ "' as a date"
  | .valueNotDate shown => "cannot interpret " ++ shown ++ " as a date"
  | .recordNotObject got => "record must be an object, got " ++ got
  | .templateWithoutText => "template filter must start with a string"
  | .predicateUnreadable got => "unsupported filter: " ++ got
  | .rangeNotPair got => "between expects a two-element array, got " ++ got
  | .patternNotText got => "regexp expects a string, got " ++ got
  | .filterNotObject => "filter must be an object"
  | .unknownIndexKind index kind => "index '" ++ index ++ "': unknown kind '" ++ kind ++ "'"
  | .settingsUnreadable reason => reason
  | .addressUnreadable fault => fault.message
  | .file reason => reason

def message (e : Error) : String := e.kind.opening ++ e.detail

end Error

/-! ## Results that are there -/

variable {ε α β : Type} {x : Except ε α} {b : β}

theorem map_eq_ok_iff {f : α → β} : x.map f = .ok b ↔ ∃ a, x = .ok a ∧ f a = b := by
  cases x with
  | error err => exact ⟨nofun, nofun⟩
  | ok a =>
    refine ⟨fun h => ⟨a, rfl, Except.ok.inj h⟩, ?_⟩
    rintro ⟨_, h, rfl⟩
    cases h
    rfl

theorem bind_eq_ok_iff {f : α → Except ε β} :
    (x >>= f) = .ok b ↔ ∃ a, x = .ok a ∧ f a = .ok b := by
  cases x with
  | error err => exact ⟨nofun, nofun⟩
  | ok a =>
    refine ⟨fun h => ⟨a, rfl, h⟩, ?_⟩
    rintro ⟨_, h, hf⟩
    cases h
    exact hf

end EntityStore
