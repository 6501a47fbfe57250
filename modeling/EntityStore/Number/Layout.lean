import EntityStore.Number.Shortest
import EntityStore.Text.Numeral

/-!
# How a double is laid out

The digits of a double are one question (`Decimal.shortest`), where the point goes and when an
exponent is used is another. A `Layout` answers the second; there are two of them, one for numbers
that stand in query text and one for numbers inside a stored document.
-/

set_option autoImplicit false

namespace EntityStore

/-- The decisions of a number format. `plain k` says whether a number whose decimal point stands at
place `k` is written without an exponent; `wholePoint`, whether a whole number still gets `.0`;
`tie`, which of two equally near decimals is taken. -/
structure Layout where
  plain : Int → Bool
  wholePoint : Bool
  tie : Tie

namespace Layout

/-- Numbers in query text never use an exponent and show no fraction they do not have; of two
equally near decimals the greater one is written. -/
def query : Layout := ⟨fun _ => true, false, .up⟩

/-- Numbers in a document are written plainly while the point stands between the fourth zero after
it and the sixteenth digit before it. They keep `.0`, which tells them from whole numbers. Of two
equally near decimals the even one is written. -/
def document : Layout := ⟨fun k => -5 < k && k ≤ 16, true, .even⟩

/-- A decimal without an exponent. -/
def plainText (wholePoint : Bool) (d : Decimal) : List Char :=
  let n : Int := d.digits.length
  if d.point ≤ 0 then '0' :: '.' :: (List.replicate (-d.point).toNat '0' ++ d.digits)
  else if n ≤ d.point then
    d.digits ++ List.replicate (d.point - n).toNat '0' ++ (if wholePoint then ['.', '0'] else [])
  else d.digits.take d.point.toNat ++ '.' :: d.digits.drop d.point.toNat

/-- A decimal with one digit before the point and a signed exponent. -/
def exponentText (d : Decimal) : List Char :=
  let e := d.point - 1
  let mantissa := match d.digits with
    | [] => []
    | [c] => [c]
    | c :: cs => c :: '.' :: cs
  mantissa ++ 'e' :: (if e < 0 then '-' else '+') :: (Numeral.ofNat e.natAbs).toList

/-- A number in a layout. Zero keeps its sign. -/
def text (layout : Layout) : Double → String
  | .nan => "NaN"
  | .infinity negative => if negative then "-inf" else "inf"
  | .finite negative m e =>
    let body :=
      if m = 0 then '0' :: (if layout.wholePoint then ['.', '0'] else [])
      else
        let d := Decimal.shortest layout.tie m e
        if layout.plain d.point then plainText layout.wholePoint d else exponentText d
    String.ofList (if negative then '-' :: body else body)

end Layout

end EntityStore
