import EntityStore.Settings.Declaration
import EntityStore.Toml.Reader

/-!
# Settings

What a settings file says: how to reach the database, and which entities there are. Everything has
a value of its own when it is left out, so an empty file is a settings file.
-/

set_option autoImplicit false

namespace EntityStore

/-- How to reach the database. What is given on its own overrides the address. -/
structure Connection where
  address : Option String
  host : Option String
  port : Option Nat
  user : Option String
  password : Option String
  database : Option String
  poolSize : Nat
  secure : Bool

namespace Connection

/-- Nothing said: ten connections, not secured. -/
def unspecified : Connection := ⟨none, none, none, none, none, none, 10, false⟩

def ofDocument? (d : Document) : Option Connection := do
  let m ← Members.of? 8 d
  let address ← m.optional 0 "url" Document.text?
  let host ← m.optional 1 "host" Document.text?
  let port ← m.optional 2 "port" (Members.count? 65535)
  let user ← m.optional 3 "username" Document.text?
  let password ← m.optional 4 "password" Document.text?
  let database ← m.optional 5 "database" Document.text?
  let poolSize ← m.defaulted 6 ["pool_size"] 10 (Members.count? Numeral.maxNat32)
  let secure ← m.defaulted 7 ["ssl"] false Members.bool?
  return { address, host, port, user, password, database, poolSize, secure }

end Connection

/-- What a settings file says. -/
structure Settings where
  connection : Connection
  entities : List EntityDeclaration

namespace Settings

def unspecified : Settings := ⟨.unspecified, []⟩

def ofDocument? (d : Document) : Option Settings := do
  let m ← Members.of? 2 d
  let connection ← m.defaulted 0 ["connection"] .unspecified Connection.ofDocument?
  let entities ← m.defaulted 1 ["entities"] [] (Members.list? EntityDeclaration.ofDocument?)
  return { connection, entities }

def ofText (text : String) : Except Error Settings :=
  match (Toml.ofText? text).bind ofDocument? with
  | some s => .ok s
  | none => .error (.settingsUnreadable "the settings cannot be read")

/-- The settings with another address, which takes the place of everything the file says about
reaching the database but the number of connections and whether they are secured. -/
def withAddress (s : Settings) (address : String) : Settings :=
  { s with connection := { Connection.unspecified with
      address := some address
      poolSize := s.connection.poolSize
      secure := s.connection.secure } }

end Settings

end EntityStore
