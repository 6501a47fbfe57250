import EntityStore.Command.Run

/-!
# The command line program

Reads the command line and the settings file, runs the command and shows its outcome. The program
has no way of its own to a server, so a command that needs one finds the network unreachable.
-/

set_option autoImplicit false

open EntityStore EntityStore.Command

/-- What there is to know of the settings file of an invocation. -/
def settingsFile (i : Invocation) : IO SettingsFile := do
  match i.config with
  | none => return .missing
  | some path =>
    try
      return .text (← IO.FS.readFile path)
    catch
      | .noFileOrDirectory .. => return .missing
      | e => return .unreadable (toString e)

def main (args : List String) : IO UInt32 := do
  let outcome ← match Command.read args with
    | .invoke i => do
      let address ← IO.getEnv "DATABASE_URL"
      let i := { i with address := i.address <|> address }
      let file ← settingsFile i
      pure (Command.run i file (Endpoint.isolated : Endpoint Unit))
    | request => pure (unserved request)
  IO.print outcome.output
  if let some e := outcome.error then
    IO.eprintln ("Error: " ++ e)
  return outcome.status.toUInt32
