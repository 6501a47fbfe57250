import EntityStore.Address.Fault
import EntityStore.Address.HostNumber
import EntityStore.Address.Percent
import EntityStore.HostName.Basic

/-!
# Hosts in an address

What a host may be depends on the scheme. A scheme that is about hosts reads their names as host
names, which may be written with percent signs and may be numbers in disguise. Any other scheme
takes a name as it stands and only keeps out the characters that have a meaning in an address.
Every scheme takes a number of sixteen bytes in brackets.
-/

set_option autoImplicit false

namespace EntityStore.Address

/-- A host that is a number of sixteen bytes, after its opening bracket. -/
def bracketedHost (cs : List Char) : Except Fault String :=
  if cs.getLast? = some ']' ∧ HostNumber.isLong cs.dropLast then .ok (String.ofList ('[' :: cs))
  else .error .longNumber

/-- Whether a character can be no part of a host that is taken as it stands. -/
def endsHost (c : Char) : Bool :=
  c.toNat == 0
    || [' ', '#', '/', ':', '<', '>', '?', '@', '[', '\\', ']', '^', '|'].contains c

/-- A host that is taken as it stands. -/
def plainHost : List Char → Except Fault String
  | '[' :: cs => bracketedHost cs
  | cs =>
    if cs.any endsHost then .error .hostCharacter
    else .ok (String.ofList (Percent.encode (fun _ => false) cs))

/-- A host whose name has to be a host name. -/
def namedHost : List Char → Except Fault String
  | '[' :: cs => bracketedHost cs
  | cs =>
    match Utf8.decode (Percent.decode cs) with
    | .error _ => .error .hostName
    | .ok cs =>
      match HostName.ofText? cs with
      | none => .error .hostName
      | some [] => .error .noHost
      | some name =>
        if HostNumber.endsLoosely name then
          match HostNumber.loose? name with
          | some n => .ok (HostNumber.shortText n)
          | none => .error .shortNumber
        else .ok (String.ofList name)

end EntityStore.Address
