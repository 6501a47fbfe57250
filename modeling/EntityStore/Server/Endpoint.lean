import EntityStore.Dialogue
import EntityStore.Server.Cell
import EntityStore.Server.Login

/-!
# Endpoints

What whoever wants to connect meets at the other end: no way there, a server that refuses the
login, or one that answers statements. Connecting turns the last into an executor. Its answers are
read cell by cell; its errors, and those of the way there, are all errors of the database.
-/

set_option autoImplicit false

namespace EntityStore

/-- The other end of a connection. The state of a server that answers is of type `σ`. -/
inductive Endpoint (σ : Type) where
  /-- There is no way to the server of a login. -/
  | unreachable (reason : Login → String)
  /-- The server refuses the login. -/
  | refusing (reason : String)
  /-- The server answers a statement with a result or the text of an error. -/
  | answering (answer : σ → String → Except String ResultSet × σ) (state : σ)

namespace Endpoint

variable {σ : Type}

/-- An error that the server wrote. -/
def serverError (text : String) : Error := .database ("error returned from database: " ++ text)

/-- An error of the way to the server. -/
def wayError (text : String) : Error := .database ("error communicating with database: " ++ text)

/-- The error of a connection that has to be secured and cannot be. -/
def securityError : Error :=
  .database "error occurred while attempting to establish a TLS connection: not supported"

/-- What a server's answers mean. -/
def executor (answer : σ → String → Except String ResultSet × σ) : Executor σ := fun s sql =>
  match answer s sql with
  | (.ok result, s) => (.ok result.toRows, s)
  | (.error text, s) => (.error (serverError text), s)

/-- Why a machine that has no network and no server of its own finds none. There is no socket, no
address to connect from, no route to any number, its own included, and nobody who knows what number
another name stands for. -/
def isolation (l : Login) : String :=
  let host := l.hostName
  if l.isLocal then "No such file or directory (os error 2)"
  else if HostNumber.isLong host then "Cannot assign requested address (os error 99)"
  else if host = "localhost".toList ∨ (HostNumber.loose? host).isSome then
    "Network is unreachable (os error 101)"
  else "failed to lookup address information: Temporary failure in name resolution"

/-- The endpoint that a machine meets that has no network and no server of its own. -/
def isolated : Endpoint σ := .unreachable isolation

/-- An open connection. -/
structure Session (σ : Type) where
  login : Login
  maxConnections : Nat
  executor : Executor σ
  state : σ

/-- Connects with settings. The settings are read before the server is looked for. -/
def connect (e : Endpoint σ) (c : Connection) : Except Error (Session σ) := do
  let login ← c.login
  match e with
  | .unreachable reason => .error (wayError (reason login))
  | .refusing text => .error (if login.secured then securityError else serverError text)
  | .answering answer state =>
    if login.secured then .error securityError
    else return ⟨login, c.maxConnections, executor answer, state⟩

end Endpoint

end EntityStore
