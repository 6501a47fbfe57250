import EntityStore.Address.Percent

/-!
# Paths

A path is made of segments with slashes in front of them. A segment of one point says nothing, and
one of two points takes back the segment before it; both may be written with percent signs. On a
machine that names its disks by letters, the path of a file begins with such a letter and a colon,
which nothing takes back.
-/

set_option autoImplicit false

namespace EntityStore.Path

/-- Whether a segment is so many points, which may be written with percent signs. -/
def isPoints : (count : Nat) → List Char → Bool
  | 0, cs => cs.isEmpty
  | count + 1, '.' :: cs => isPoints count cs
  | count + 1, '%' :: '2' :: e :: cs => (e == 'e' || e == 'E') && isPoints count cs
  | _, _ => false

/-- Whether a segment names a disk: a letter, then a colon or a bar. -/
def isDisk : List Char → Bool
  | [letter, mark] => letter.isAlpha && (mark == ':' || mark == '|')
  | _ => false

/-- Whether a character is written with a percent sign in a path, plain though it is. -/
def isSpecial (c : Char) : Bool :=
  [' ', '"', '#', '<', '>', '?', '\x60', '\x7b', '\x7d'].contains c

/-- The segments so far without the last one, unless that names the disk of a file. The segments
are in reverse. -/
def takeBack (isFile : Bool) : List (List Char) → List (List Char)
  | [] => []
  | [first] => if isFile && isDisk first then [first] else []
  | _ :: rest => rest

/-- A segment put behind others, which are in reverse. -/
def push (isFile : Bool) (segments : List (List Char)) (segment : List Char) : List (List Char) :=
  if isFile && segments.isEmpty && isDisk segment then [segment.take 1 ++ [':']]
  else Percent.encode isSpecial segment :: segments

/-- The segments of a path, in reverse, behind those that there are. The last segment of all is kept
empty where it says nothing. -/
def resolve (isFile : Bool) : List (List Char) → List (List Char) → List (List Char)
  | segments, [] => segments
  | segments, [last] =>
    if isPoints 2 last then [] :: takeBack isFile segments
    else if isPoints 1 last then [] :: segments
    else push isFile segments last
  | segments, segment :: rest =>
    if isPoints 2 segment then resolve isFile (takeBack isFile segments) rest
    else if isPoints 1 segment then resolve isFile segments rest
    else resolve isFile (push isFile segments segment) rest

/-- The text of a path that begins with a slash, which is not part of `cs`. -/
def ofSegments (isFile : Bool) (isSlash : Char → Bool) (cs : List Char) : List Char :=
  (resolve isFile [] (cs.splitOnP isSlash)).reverse.flatMap ('/' :: ·)

end EntityStore.Path
