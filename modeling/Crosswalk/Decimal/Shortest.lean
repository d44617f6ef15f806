/-!
# The fewest digits that identify a number

A finite 64-bit floating-point number is `m * 2^q`.  The reals that round to it form an interval
that reaches halfway to either neighbour; its ends belong to it exactly when `m` is even.  Among
the decimals in the interval the selection takes one with the fewest digits, of two such decimals
the nearer one, and on an exact tie the one whose last digit is even.  All of it is arithmetic on
natural numbers.
-/

namespace Crosswalk

/-- The number `digits * 10^exponent`. -/
structure Decimal where
  digits : Nat
  exponent : Int
deriving DecidableEq, Repr

/-- The number `m * 2^q`. -/
structure Binary where
  m : Nat
  q : Int
  /-- The neighbour below is half as far away as the neighbour above. -/
  narrowBelow : Bool
deriving DecidableEq, Repr

namespace Binary

/-- The size of the number with the given bits, which are not those of an infinity or of NaN. -/
def ofBits (bits : UInt64) : Binary :=
  let exponent := ((bits >>> 52) &&& 0x7FF).toNat
  let fraction := (bits &&& 0xFFFFFFFFFFFFF).toNat
  if exponent = 0 then ⟨fraction, -1074, false⟩
  else ⟨0x10000000000000 + fraction, (exponent : Int) - 1075, fraction == 0 && exponent > 1⟩

/-- Compares `a * 10^i` with `b * 2^j`. -/
def compareScaled (a : Nat) (i : Int) (b : Nat) (j : Int) : Ordering :=
  compare ((a * Nat.pow 10 i.toNat) <<< (-j).toNat) ((b <<< j.toNat) * Nat.pow 10 (-i).toNat)

/-- Whether a decimal lies in the interval of the reals that round to the number. -/
def readsBack (x : Binary) (d : Decimal) : Bool :=
  let low := compareScaled d.digits d.exponent
    (if x.narrowBelow then 4 * x.m - 1 else 4 * x.m - 2) (x.q - 2)
  let high := compareScaled d.digits d.exponent (4 * x.m + 2) (x.q - 2)
  let ends := x.m % 2 == 0
  (low == .gt || (ends && low == .eq)) && (high == .lt || (ends && high == .eq))

/-- The multiple of `10^e` next below the number, as its number of units. -/
def floorOn (x : Binary) (e : Int) : Nat :=
  ((x.m <<< x.q.toNat) * Nat.pow 10 (-e).toNat) / (Nat.pow 10 e.toNat <<< (-x.q).toNat)

/-- Of the two multiples of `10^e` around the number: one that reads back, the nearer one if both
do, the even one if they are equally near. -/
def pick (x : Binary) (e : Int) : Option Decimal :=
  let below : Decimal := ⟨x.floorOn e, e⟩
  let above : Decimal := ⟨x.floorOn e + 1, e⟩
  match x.readsBack below, x.readsBack above with
  | false, false => none
  | true, false => some below
  | false, true => some above
  | true, true =>
    match compareScaled (2 * below.digits + 1) e (2 * x.m) x.q with
    | .gt => some below
    | .lt => some above
    | .eq => some (if below.digits % 2 = 0 then below else above)

/-- The least power of ten that lies above the number, which is not zero. -/
def magnitude (x : Binary) : Int :=
  let estimate := ((x.m.log2 : Int) + x.q) * 30103 / 100000
  let candidates := [estimate - 1, estimate, estimate + 1, estimate + 2]
  (candidates.find? fun k => compareScaled 1 k x.m x.q == .gt).getD (estimate + 3)

/-- The exact decimal value of the number. -/
def exact (x : Binary) : Decimal :=
  if x.q < 0 then ⟨x.m * Nat.pow 5 (-x.q).toNat, x.q⟩ else ⟨x.m <<< x.q.toNat, 0⟩

/-- A decimal without the zeros at the end of its digits, at most `count` of them. -/
def stripZeros : (count : Nat) → Decimal → Decimal
  | 0, d => d
  | count + 1, d =>
    if d.digits % 10 = 0 then stripZeros count ⟨d.digits / 10, d.exponent + 1⟩ else d

/-- The decimal with the fewest digits that reads back to the number, which is not zero.  The
grids are tried from the coarsest to the one that shows seventeen digits. -/
def shortest (x : Binary) : Decimal :=
  let found := (List.range 17).findSome? fun n : Nat => x.pick (x.magnitude - 1 - n)
  let chosen := found.getD x.exact
  stripZeros (chosen.digits.log2 + 1) chosen

end Binary

end Crosswalk
