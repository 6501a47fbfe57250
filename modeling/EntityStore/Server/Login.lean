import EntityStore.Address.Basic
import EntityStore.Error
import EntityStore.Settings.Basic

/-!
# Logins

What a server is told by whoever logs in, and where the server is found. An address says all of it:
the parts before the question mark first, and then the settings after it, each of which overrides
what was said before. What the settings file gives on its own overrides the address.
-/

set_option autoImplicit false

namespace EntityStore

/-- What a server is told by whoever logs in, and where it is found. A server of this machine is
found in a directory, by its socket, which goes before the host. -/
structure Login where
  socket : Option String
  host : Option String
  port : Option Nat
  user : Option String
  password : Option String
  database : Option String
  /-- Whether the connection has to be secured. -/
  secured : Bool
  deriving DecidableEq

namespace Login

/-- Nothing said. A connection need not be secured. -/
def unspecified : Login := ⟨none, none, none, none, none, none, false⟩

/-- Whether the server is one of this machine, found by its socket. A host that is a path names the
directory of one. -/
def isLocal (l : Login) : Bool :=
  l.socket.isSome || l.host.any fun host => host.toList.head? == some '/'

/-- The host that the server runs on, without brackets; this machine where none is named. -/
def hostName (l : Login) : List Char :=
  ((l.host.map (·.toList)).getD "localhost".toList).filter fun c => c != '[' && c != ']'

/-! ## Settings of an address -/

/-- What is wrong with a text that should be a count up to a bound, the first fault from the left;
`n` is the number that the digits so far write. -/
def countFault (greatest n : Nat) : List Char → Address.Fault
  | [] => .countDigit
  | c :: cs =>
    if !c.isDigit then .countDigit
    else
      let n := 10 * n + Numeral.digitValue c
      if greatest < n then .countTooLarge else countFault greatest n cs

/-- A count up to a bound. -/
def count (greatest : Nat) (s : String) : Except Address.Fault Nat :=
  match Numeral.natUpTo? greatest s with
  | some n => .ok n
  | none =>
    if s.isEmpty then .error .noCount
    else .error (countFault greatest 0 (match s.toList with
      | '+' :: cs => cs
      | cs => cs))

/-- Whether a connection has to be secured, by the word for how far it should be. -/
def securityMode? (word : String) : Option Bool :=
  match Text.lower word with
  | "disable" | "allow" | "prefer" => some false
  | "require" | "verify-ca" | "verify-full" => some true
  | _ => none

/-- The login with one setting more. Unknown names mean nothing. -/
def withSetting (l : Login) (name value : String) : Except Address.Fault Login :=
  match name with
  | "host" =>
    return if value.toList.head? = some '/' then { l with socket := some value }
      else { l with host := some value }
  | "hostaddr" =>
    if HostNumber.isNumber value.toList then return { l with host := some value }
    else .error .hostNumber
  | "port" => do return { l with port := some (← count 65535 value) }
  | "dbname" => return { l with database := some value }
  | "user" => return { l with user := some value }
  | "password" => return { l with password := some value }
  | "statement-cache-capacity" => (count Numeral.maxNat64 value).map fun _ => l
  | "sslmode" | "ssl-mode" =>
    match securityMode? value with
    | some secured => return { l with secured }
    | none => .error (.securityMode value)
  | _ => return l

/-- A name or a value of a setting. A plus sign stands for a space. -/
def settingText (cs : List Char) : String :=
  let cs := cs.map fun c => if c = '+' then ' ' else c
  String.ofList (Utf8.decodeMended (Percent.decode cs))

/-- The name and the value of a setting, between which the first equals sign stands. -/
def setting (cs : List Char) : String × String :=
  let (name, value) := cs.span (· != '=')
  (settingText name, settingText (value.drop 1))

/-! ## Whole addresses -/

/-- A part of an address as text. -/
def partText (cs : List Char) : Except Address.Fault String :=
  ((Utf8.decode (Percent.decode cs)).map String.ofList).mapError .text

/-- A part of an address as text, if it says anything. -/
def partText? (cs : List Char) : Except Address.Fault (Option String) :=
  if cs.isEmpty then .ok none else (partText cs).map some

/-- The login without a user that a host describes. One whose decoded name is a path names the
directory of a socket. -/
def ofHost (host : String) : Except Address.Fault Login :=
  if (Percent.decode host.toList).head? = some '/'.toNat.toUInt8 then
    return { unspecified with socket := some (← partText host.toList) }
  else return { unspecified with host := some host }

/-- The login that an address describes. Slashes in front of the name of the database are not part
of it. -/
def ofAddress (a : Address) : Except Address.Fault Login := do
  let l ← (a.host.map ofHost).getD (.ok unspecified)
  let user ← partText? a.user
  let password ← partText? a.password
  let name := a.path.dropWhile (· == '/')
  let database := if name.isEmpty then none else some (String.ofList name)
  (a.query.splitOn '&').foldlM
    (fun l cs => let (name, value) := setting cs; l.withSetting name value)
    { l with port := a.port, user, password, database }

def ofText (s : String) : Except Address.Fault Login := Address.ofText s >>= ofAddress

end Login

namespace Connection

/-- The login that settings describe: that of the address, if there is one, overridden by what is
given on its own. -/
def login (c : Connection) : Except Error Login := do
  let base ← match c.address with
    | some address => (Login.ofText address).mapError .addressUnreadable
    | none => pure Login.unspecified
  return { base with
    host := c.host <|> base.host
    port := c.port <|> base.port
    user := c.user <|> base.user
    password := c.password <|> base.password
    database := c.database <|> base.database
    secured := c.secure || base.secured }

/-- The greatest number of connections held at once; there is always one. -/
def maxConnections (c : Connection) : Nat := max 1 c.poolSize

end Connection

end EntityStore
