/-!
# Reading numbers from plain text

A decimal text is a whole part, an optional fraction after a point and an optional signed exponent;
the fraction may be empty, the whole part may not, and a hyphen may stand in front.  Its value is
rounded correctly to the nearest floating-point number, or to an infinity when it is too large.
-/

namespace Crosswalk.Decimal

/-- The floating-point number nearest to `digits * 10^exponent`.  A number of more than 400 places
before the point is infinite, and one that begins more than 400 places after it is zero. -/
def nearest (digits : Nat) (exponent : Int) : Float :=
  let first := exponent + (Nat.toDigits 10 digits).length
  if digits = 0 ∨ first < -400 then 0.0
  else if first > 400 then 1.0 / 0.0
  else Float.ofScientific digits (exponent < 0) exponent.natAbs

/-- The exponent that a text spells after its mark: an optional sign and digits, and no more. -/
def exponentOf? : List Char → Option Int
  | '-' :: digits =>
    if digits.isEmpty || !digits.all Char.isDigit then none
    else some (-(Nat.ofDigitChars 10 digits 0 : Int))
  | '+' :: digits =>
    if digits.isEmpty || !digits.all Char.isDigit then none
    else some (Nat.ofDigitChars 10 digits 0)
  | digits =>
    if digits.isEmpty || !digits.all Char.isDigit then none
    else some (Nat.ofDigitChars 10 digits 0)

/-- The number that an unsigned decimal text spells. -/
def unsignedOf? (cs : List Char) : Option Float :=
  let whole := cs.takeWhile Char.isDigit
  let afterWhole := cs.dropWhile Char.isDigit
  let (fraction, afterFraction) :=
    match afterWhole with
    | '.' :: rest => (rest.takeWhile Char.isDigit, rest.dropWhile Char.isDigit)
    | _ => ([], afterWhole)
  let value (exponent : Int) : Float :=
    nearest (Nat.ofDigitChars 10 (whole ++ fraction) 0) (exponent - fraction.length)
  if whole.isEmpty then none
  else
    match afterFraction with
    | [] => some (value 0)
    | c :: exponent => if c = 'e' ∨ c = 'E' then (exponentOf? exponent).map value else none

/-- The number that a decimal text spells. -/
def floatOf? : List Char → Option Float
  | '-' :: cs => (unsignedOf? cs).map (fun x => -x)
  | cs => unsignedOf? cs

/-- The integer that a text of digits spells, a hyphen allowed in front. -/
def integerOf? : List Char → Option Int
  | '-' :: digits =>
    if digits.isEmpty || !digits.all Char.isDigit then none
    else some (-(Nat.ofDigitChars 10 digits 0 : Int))
  | digits =>
    if digits.isEmpty || !digits.all Char.isDigit then none
    else some (Nat.ofDigitChars 10 digits 0)

end Crosswalk.Decimal
