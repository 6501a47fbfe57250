/-!
# Texts in bytes

A character is written in one to four bytes. The first of them says how many follow, and each of
the others lies between two bounds, which are narrower right after some first bytes: so no
character has two written forms, and nothing but characters has one.

Bytes that are not all characters still fall into pieces in one way only: a character that is begun
goes on for as long as its bytes fit, and the byte that does not fit begins the next piece.
-/

set_option autoImplicit false

namespace EntityStore.Utf8

def ofText (cs : List Char) : List UInt8 := cs.flatMap String.utf8EncodeChar

/-- A character of which some bytes are read. -/
structure Begun where
  /-- What the bytes so far add up to. -/
  value : Nat
  /-- How many bytes are read. -/
  length : Nat
  /-- How many bytes are missing. -/
  missing : Nat
  /-- The bounds of the next byte. -/
  least : Nat
  greatest : Nat

/-- What bytes fall into. -/
inductive Piece where
  | char (c : Char)
  /-- So many bytes that begin a character, or could not, before a byte that does not go on with
  it. -/
  | broken (length : Nat)
  /-- So many bytes that begin a character, at the end. -/
  | unfinished (length : Nat)
  deriving DecidableEq

/-- What a byte begins after a piece that is complete. -/
def start (b : Nat) : List Piece × Option Begun :=
  if b ≤ 0x7F then ([.char (Char.ofNat b)], none)
  else if 0xC2 ≤ b && b ≤ 0xDF then ([], some ⟨b - 0xC0, 1, 1, 0x80, 0xBF⟩)
  else if b == 0xE0 then ([], some ⟨0, 1, 2, 0xA0, 0xBF⟩)
  else if b == 0xED then ([], some ⟨0xD, 1, 2, 0x80, 0x9F⟩)
  else if 0xE1 ≤ b && b ≤ 0xEF then ([], some ⟨b - 0xE0, 1, 2, 0x80, 0xBF⟩)
  else if b == 0xF0 then ([], some ⟨0, 1, 3, 0x90, 0xBF⟩)
  else if 0xF1 ≤ b && b ≤ 0xF3 then ([], some ⟨b - 0xF0, 1, 3, 0x80, 0xBF⟩)
  else if b == 0xF4 then ([], some ⟨4, 1, 3, 0x80, 0x8F⟩)
  else ([.broken 1], none)

/-- The pieces that a byte completes, and the character it leaves begun. -/
def step : Option Begun → Nat → List Piece × Option Begun
  | none, b => start b
  | some p, b =>
    if p.least ≤ b && b ≤ p.greatest then
      let value := 64 * p.value + (b - 0x80)
      if p.missing ≤ 1 then ([.char (Char.ofNat value)], none)
      else ([], some ⟨value, p.length + 1, p.missing - 1, 0x80, 0xBF⟩)
    else
      let (pieces, begun) := start b
      (.broken p.length :: pieces, begun)

/-- The pieces of some bytes after a character that may be begun. -/
def piecesFrom : Option Begun → List UInt8 → List Piece
  | none, [] => []
  | some p, [] => [.unfinished p.length]
  | begun, b :: bs =>
    let (pieces, begun) := step begun b.toNat
    pieces ++ piecesFrom begun bs

def pieces (bs : List UInt8) : List Piece := piecesFrom none bs

/-- Why bytes are no text: the first piece that is not a character, and how many bytes stand before
it. -/
inductive Fault where
  | broken (length index : Nat)
  | unfinished (index : Nat)
  deriving DecidableEq

def Fault.message : Fault → String
  | .broken length index =>
    "invalid utf-8 sequence of " ++ length.repr ++ " bytes from index " ++ index.repr
  | .unfinished index => "incomplete utf-8 byte sequence from index " ++ index.repr

/-- The characters of pieces that are all characters; `index` bytes stand before them. -/
def chars (index : Nat) : List Piece → Except Fault (List Char)
  | [] => .ok []
  | .char c :: ps => (chars (index + c.utf8Size) ps).map (c :: ·)
  | .broken length :: _ => .error (.broken length index)
  | .unfinished _ :: _ => .error (.unfinished index)

def decode (bs : List UInt8) : Except Fault (List Char) := chars 0 (pieces bs)

/-- A piece as a character: the replacement character for one that is none. -/
def Piece.mended : Piece → Char
  | .char c => c
  | _ => Char.ofNat 0xFFFD

/-- The text of some bytes, mended where they write none. -/
def decodeMended (bs : List UInt8) : List Char := (pieces bs).map Piece.mended

end EntityStore.Utf8
