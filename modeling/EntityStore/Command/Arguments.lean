import EntityStore.Command.Help

/-!
# Command lines

What can be asked for on a command line, and how it is written. General options stand before the
command and those of a command after it; `--` ends the options of a command. An option that takes a
value takes it from the rest of its word, after an equals sign if there is one, or from the next
word, unless that word looks like an option. No option may be given twice.

A command line that asks for nothing that can be done is a mistake in usage, and all such mistakes
are alike.
-/

set_option autoImplicit false

namespace EntityStore.Command

/-- How found rows are shown. -/
inductive Format where
  | table
  | json
  deriving DecidableEq

/-- What is to be done with a database. -/
inductive DatabaseTask where
  | find (entity filter : String) (format : Format)
  | plan
  | migrate
  | check
  deriving DecidableEq

/-- What is to be done. Compiling a filter needs no database. -/
inductive Task where
  | compile (entity filter : String)
  | database (task : DatabaseTask)
  deriving DecidableEq

/-- What a command line asks for. -/
structure Invocation where
  config : Option String
  address : Option String
  verbose : Bool
  task : Task
  deriving DecidableEq

/-- What a command line turns out to be. -/
inductive Request where
  | invoke (i : Invocation)
  | version
  | help (topic : Topic)
  | mistake
  deriving DecidableEq

/-- A word of a command line by what it looks like. -/
inductive Word where
  /-- `--`. -/
  | separator
  /-- `--name` or `--name=value`. -/
  | long (name : String) (value : Option String)
  /-- `-abc`. -/
  | short (letters : List Char)
  /-- Anything else, a single hyphen among it. -/
  | plain (text : String)

/-- What a word looks like. -/
def Word.of (word : String) : Word :=
  match word.toList with
  | ['-', '-'] => .separator
  | '-' :: '-' :: name =>
    match name.span (· != '=') with
    | (name, _ :: value) => .long (String.ofList name) (some (String.ofList value))
    | (name, []) => .long (String.ofList name) none
  | '-' :: c :: letters => .short (c :: letters)
  | _ => .plain word

/-- Whether a word can be the value of an option before it. -/
def Word.isValue (word : String) : Bool :=
  match Word.of word with
  | .plain _ => true
  | _ => false

/-! ## The options of a command -/

/-- What has been read of a command's own words, the places last first. -/
structure Local where
  format : Option Format
  places : List String

def Format.ofName? : String → Option Format
  | "table" => some .table
  | "json" => some .json
  | _ => none

/-- What reading words comes to: a result, or an end before it. -/
inductive Reading (α : Type) where
  | read (a : α)
  | version
  | help
  | mistake

/-- Sets the format, once. -/
def Local.setFormat? (l : Local) (name : String) : Option Local :=
  if l.format.isSome then none else (Format.ofName? name).map fun f => { l with format := some f }

/-- The value that stands in the same word as a short option. -/
def attached : List Char → String
  | '=' :: value => String.ofList value
  | value => String.ofList value

/-- Reads the words of a command that has room for `room` places, and perhaps a format. After the
separator every word is a place. -/
def readLocal (formatted : Bool) (room : Nat) : Local → List String → Reading Local
  | l, [] => .read l
  | l, word :: words =>
    match Word.of word with
    | .plain text =>
      if l.places.length < room then
        readLocal formatted room { l with places := text :: l.places } words
      else .mistake
    | .separator =>
      if l.places.length + words.length ≤ room then
        .read { l with places := words.reverse ++ l.places }
      else .mistake
    | .long "help" none => .help
    | .long "format" (some value) =>
      match if formatted then l.setFormat? value else none with
      | some l => readLocal formatted room l words
      | none => .mistake
    | .long "format" none => formatNext l words
    | .short ('h' :: _) => .help
    | .short ['f'] => formatNext l words
    | .short ('f' :: value) =>
      match if formatted then l.setFormat? (attached value) else none with
      | some l => readLocal formatted room l words
      | none => .mistake
    | _ => .mistake
where
  /-- The format is the next word. -/
  formatNext (l : Local) : List String → Reading Local
    | value :: words =>
      match if formatted && Word.isValue value then l.setFormat? value else none with
      | some l => readLocal formatted room l words
      | none => .mistake
    | [] => .mistake

/-- The filter where none is given. -/
def allRows : String := "\x7b\x7d"

def readTask (name : String) (words : List String) : Reading Task :=
  match name with
  | "compile" =>
    match readLocal false 2 ⟨none, []⟩ words with
    | .read ⟨_, [entity]⟩ => .read (.compile entity allRows)
    | .read ⟨_, [filter, entity]⟩ => .read (.compile entity filter)
    | .help => .help
    | _ => .mistake
  | "find" =>
    match readLocal true 2 ⟨none, []⟩ words with
    | .read ⟨format, [entity]⟩ => .read (.database (.find entity allRows (format.getD .table)))
    | .read ⟨format, [filter, entity]⟩ =>
      .read (.database (.find entity filter (format.getD .table)))
    | .help => .help
    | _ => .mistake
  | "plan" => bare .plan
  | "migrate" => bare .migrate
  | "check" => bare .check
  | _ => .mistake
where
  /-- A command without places or options. -/
  bare (task : DatabaseTask) : Reading Task :=
    match readLocal false 0 ⟨none, []⟩ words with
    | .read _ => .read (.database task)
    | .help => .help
    | _ => .mistake

/-- What is asked for by the words after `help`: the name of one command, or none. -/
def readTopic : List String → Request
  | [] => .help .program
  | [name] => match Topic.ofName? name with
    | some topic => .help topic
    | none => .mistake
  | _ => .mistake

/-- What is asked for by the name of a command and the words after it, with the general options
given before them. -/
def readCommand (config address : Option String) (verbose : Bool) (name : String)
    (words : List String) : Request :=
  if name = "help" then readTopic words
  else
    match readTask name words with
    | .read task => .invoke ⟨config, address, verbose, task⟩
    | .version => .version
    | .help => .help ((Topic.ofName? name).getD .program)
    | .mistake => .mistake

/-! ## The general options -/

/-- What has been read of the words before the command. -/
structure General where
  config : Option String
  address : Option String
  verbose : Bool

namespace General

/-- Sets the settings file, once; its name is not empty. -/
def setConfig? (g : General) (value : String) : Option General :=
  if g.config.isSome || value.isEmpty then none else some { g with config := some value }

/-- Sets the address, once. -/
def setAddress? (g : General) (value : String) : Option General :=
  if g.address.isSome then none else some { g with address := some value }

/-- Sets the level of detail, once. -/
def setVerbose? (g : General) : Option General :=
  if g.verbose then none else some { g with verbose := true }

/-- An option that waits for its value in the next word. -/
inductive Pending where
  | config
  | address

/-- Gives a waiting option its value. -/
def give? (g : General) : Pending → String → Option General
  | .config, value => g.setConfig? value
  | .address, value => g.setAddress? value

/-- Reads short options, which may share a word. -/
def shorts (g : General) : List Char → Reading (General × Option Pending)
  | [] => .read (g, none)
  | 'h' :: _ => .help
  | 'V' :: _ => .version
  | 'v' :: letters =>
    match g.setVerbose? with
    | some g => shorts g letters
    | none => .mistake
  | ['c'] => .read (g, some .config)
  | 'c' :: value =>
    match g.setConfig? (attached value) with
    | some g => .read (g, none)
    | none => .mistake
  | _ => .mistake

/-- Reads one word before the command. -/
def word (g : General) : Word → Reading (General × Option Pending)
  | .long "help" none => .help
  | .long "version" none => .version
  | .long "verbose" none => settled g.setVerbose?
  | .long "config" none => .read (g, some .config)
  | .long "config" (some value) => settled (g.setConfig? value)
  | .long "database-url" none => .read (g, some .address)
  | .long "database-url" (some value) => settled (g.setAddress? value)
  | .short letters => shorts g letters
  | _ => .mistake
where
  /-- An option that is complete in its word. -/
  settled : Option General → Reading (General × Option Pending)
    | some g => .read (g, none)
    | none => .mistake

end General

/-- Reads a command line from what has been read of it. -/
def readFrom (g : General) : Option General.Pending → List String → Request
  | some _, [] => .mistake
  | none, [] => .mistake
  | some p, value :: words =>
    match if Word.isValue value then g.give? p value else none with
    | some g => readFrom g none words
    | none => .mistake
  | none, text :: words =>
    match Word.of text with
    | .plain name => readCommand g.config g.address g.verbose name words
    | w =>
      match g.word w with
      | .read (g, p) => readFrom g p words
      | .version => .version
      | .help => .help .program
      | .mistake => .mistake

def read (words : List String) : Request := readFrom ⟨none, none, false⟩ none words

end EntityStore.Command
