import Crosswalk.Decimal.Shortest

/-!
# Writing numbers

A floating-point number is written with the fewest digits that identify it.  From `0.00001` up to
but not including `10^16` the point stands in its place and at least one digit follows it; outside
that range the first digit is followed by the others and by a signed exponent.
-/

namespace Crosswalk.Decimal

/-- The digits of a natural number. -/
def digitsOf (n : Nat) : List Char :=
  Nat.toDigits 10 n

/-- The text of an integer. -/
def integerText (i : Int) : List Char :=
  if i < 0 then '-' :: digitsOf i.natAbs else digitsOf i.natAbs

/-- The digits with a point in its place.  `first` is the exponent of the first digit. -/
def positional (digits : List Char) (first : Int) : List Char :=
  if first < 0 then '0' :: '.' :: (List.replicate (-first - 1).toNat '0' ++ digits)
  else
    let whole := (first + 1).toNat
    if digits.length ≤ whole then
      digits ++ List.replicate (whole - digits.length) '0' ++ ['.', '0']
    else digits.take whole ++ '.' :: digits.drop whole

/-- The digits with a point after the first one and a signed exponent. -/
def scientific (digits : List Char) (first : Int) : List Char :=
  let fraction := if digits.length ≤ 1 then [] else '.' :: digits.drop 1
  digits.take 1 ++ fraction ++ 'e' :: (if first < 0 then '-' else '+') :: digitsOf first.natAbs

/-- The text of a decimal that is not zero. -/
def layout (d : Decimal) : List Char :=
  let digits := digitsOf d.digits
  let first := d.exponent + digits.length - 1
  if -5 ≤ first ∧ first < 16 then positional digits first else scientific digits first

/-- The text of a finite floating-point number. -/
def floatText (x : Float) : List Char :=
  let bits := x.toBits
  let sign := if bits >>> 63 = 1 then ['-'] else []
  let size := Binary.ofBits (bits &&& 0x7FFFFFFFFFFFFFFF)
  if size.m = 0 then sign ++ ['0', '.', '0'] else sign ++ layout size.shortest

end Crosswalk.Decimal
