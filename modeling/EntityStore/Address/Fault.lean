import EntityStore.Text.Utf8

/-!
# Faults of addresses

Why an address cannot be read, or says something that no login can be made of.
-/

set_option autoImplicit false

namespace EntityStore.Address

/-- What is wrong with an address. -/
inductive Fault where
  /-- No scheme stands in front. -/
  | noScheme
  /-- There is no host where there has to be one. -/
  | noHost
  /-- The name of the host is none that the scheme allows. -/
  | hostName
  /-- A character that has a meaning in an address stands in the name of the host. -/
  | hostCharacter
  /-- The host ends like a number of four bytes and is none. -/
  | shortNumber
  /-- The host stands in brackets and is no number of sixteen bytes. -/
  | longNumber
  /-- The port is no number of sixteen bits. -/
  | port
  /-- A decoded part is no text. -/
  | text (fault : Utf8.Fault)
  /-- A setting asks for a count and is empty. -/
  | noCount
  /-- A setting asks for a count and has something other than digits. -/
  | countDigit
  /-- A setting asks for a count and is too large. -/
  | countTooLarge
  /-- A setting asks for a host by number and is none. -/
  | hostNumber
  /-- There is no such way to secure a connection. -/
  | securityMode (written : String)
  deriving DecidableEq

namespace Fault

def opening : String := "error with configuration: "

/-- A character in a quoted text of a message. Control characters are written by number, in braces,
except for the four that have a letter. -/
def quotedChar (c : Char) : List Char :=
  if c = '"' ∨ c = '\\' then ['\\', c]
  else if c = '\n' then ['\\', 'n']
  else if c = '\r' then ['\\', 'r']
  else if c = '\t' then ['\\', 't']
  else if c.toNat = 0 then ['\\', '0']
  else if c.toNat < 0x20 ∨ (0x7F ≤ c.toNat ∧ c.toNat < 0xA0) then
    ['\\', 'u', '\x7b'] ++ Nat.toDigits 16 c.toNat ++ ['\x7d']
  else [c]

def quoted (s : String) : String := "\"" ++ String.ofList (s.toList.flatMap quotedChar) ++ "\""

/-- What a message says about a fault. -/
def detail : Fault → String
  | .noScheme => "relative URL without a base"
  | .noHost => "empty host"
  | .hostName => "invalid international domain name"
  | .hostCharacter => "invalid domain character"
  | .shortNumber => "invalid IPv4 address"
  | .longNumber => "invalid IPv6 address"
  | .port => "invalid port number"
  | .text fault => fault.message
  | .noCount => "cannot parse integer from empty string"
  | .countDigit => "invalid digit found in string"
  | .countTooLarge => "number too large to fit in target type"
  | .hostNumber => "invalid IP address syntax"
  | .securityMode written =>
    opening ++ "unknown value " ++ quoted written ++ " for `ssl_mode`"

def message (f : Fault) : String := opening ++ f.detail

end Fault

end EntityStore.Address
