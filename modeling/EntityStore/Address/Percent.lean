import EntityStore.Text.Numeral
import EntityStore.Text.Utf8

/-!
# Percent signs

A character that has a meaning in an address, or none in any, is written as the bytes of its text,
each as a percent sign and two hexadecimal digits. A percent sign without digits stands for itself,
so every text can be decoded; whether the bytes are a text is another question.
-/

set_option autoImplicit false

namespace EntityStore.Percent

/-- The bytes that a text stands for. -/
def decode : List Char → List UInt8
  | [] => []
  | '%' :: a :: b :: cs =>
    match Numeral.hexValue? a, Numeral.hexValue? b with
    | some x, some y => UInt8.ofNat (16 * x + y) :: decode cs
    | _, _ => Utf8.ofText ['%'] ++ decode (a :: b :: cs)
  | c :: cs => Utf8.ofText [c] ++ decode cs

/-- One of the sixteen hexadecimal digits, a capital one. -/
def hexDigit (n : Nat) : Char := (Nat.digitChar n).toUpper

/-- A byte as a percent sign and two digits. -/
def ofByte (b : UInt8) : List Char := ['%', hexDigit (b.toNat / 16), hexDigit (b.toNat % 16)]

/-- Whether a character stands for itself in every part of an address: a graphic ASCII one, or a
space. -/
def isPlain (c : Char) : Bool := 0x20 ≤ c.toNat && c.toNat < 0x7F

/-- A text with percent signs for the characters of a class, and for all that are not plain. -/
def encode (isSpecial : Char → Bool) (cs : List Char) : List Char :=
  cs.flatMap fun c =>
    if isSpecial c || !isPlain c then (Utf8.ofText [c]).flatMap ofByte else [c]

end EntityStore.Percent
