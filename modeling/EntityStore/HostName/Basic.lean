import EntityStore.HostName.Direction
import EntityStore.HostName.Joining
import EntityStore.HostName.Mapping
import EntityStore.HostName.Marks
import EntityStore.HostName.Punycode

/-!
# Host names

A host name is made of parts with points between them. Names that look the same are one name, so a
name is read into the one form that stands for all of them: its characters replaced as the tables
say and composed. A part that begins with `xn--` is Punycode and is read as what it stands for, if
that is such a form already and not to be written without Punycode.

What is left must not hold a character that has a meaning in an address.
-/

set_option autoImplicit false

namespace EntityStore.HostName

def isAscii (c : Char) : Bool := c.toNat < 0x80

/-- How a part in Punycode begins. -/
def punycodeMark : List Char := ['x', 'n', '-', '-']

/-- Whether a character has a meaning in an address, or is blank or a control character. -/
def isForbidden (c : Char) : Bool :=
  c.toNat ≤ 0x20 || c.toNat == 0x7F
    || ['%', '#', '/', ':', '<', '>', '?', '@', '[', '\\', ']', '^', '|'].contains c

/-- Whether a part may stand in a name, whatever it was read from. -/
def isPart (cs : List Char) : Bool := !cs.head?.any isMark && joinersFit cs

/-- Whether a text has to be written in Punycode, and is in the form that a part has. -/
def needsPunycode (cs : List Char) : Bool :=
  !cs.all isAscii && cs.all isKept && composed cs == cs && !punycodeMark.isPrefixOf cs

/-- One part of a name whose characters are replaced and composed. -/
def part? (cs : List Char) : Option (List Char) :=
  if punycodeMark.isPrefixOf cs then
    if cs.all isAscii then
      (Punycode.decode? (cs.drop punycodeMark.length)).filter fun cs => needsPunycode cs && isPart cs
    else none
  else if isPart cs then some cs
  else none

/-- The name that a text writes. It may be empty. -/
def ofText? (cs : List Char) : Option (List Char) := do
  let replaced ← cs.mapM mapped?
  let parts ← ((composed replaced.flatten).splitOn '.').mapM part?
  let name := ['.'].intercalate parts
  if showsInOrder parts && !name.any isForbidden then some name else none

end EntityStore.HostName
