/-!
# Floating-point numbers, taken apart

The elements of a matrix are 64-bit floating-point numbers. What they mean is said here through
their bits: a number is not a number at all, or infinite, or a whole mantissa times a power of two.

## Main definitions

* `Binary64`: the meaning of a floating-point number;
* `Binary64.ofFloat`: the meaning of the bits of a `Float`;
* `Binary64.shortest`: the fewest decimal digits that read back as the number.
-/

namespace ModelPatch

/-- The meaning of a floating-point number. -/
inductive Binary64
  /-- Not a number. -/
  | nan
  /-- An infinity and its sign. -/
  | infinite (negative : Bool)
  /-- The number `mantissa * 2 ^ exponent`, with a sign. -/
  | finite (negative : Bool) (mantissa : Nat) (exponent : Int)
  deriving DecidableEq, Repr

namespace Binary64

/-- The number of fractions, which have 52 bits. -/
def fractionCount : Nat := 0x10000000000000

/-- The number of exponent fields, which have eleven bits. -/
def fieldCount : Nat := 0x800

/-- The meaning of 64 bits: a sign, eleven bits of exponent and 52 bits of fraction. The largest
exponent marks infinities and what is not a number; the least one has no hidden leading bit. -/
def ofBits (bits : Nat) : Binary64 :=
  let negative : Bool := bits / (fieldCount * fractionCount) % 2 == 1
  let field : Nat := bits / fractionCount % fieldCount
  let fraction : Nat := bits % fractionCount
  if field + 1 = fieldCount then
    if fraction = 0 then infinite negative else nan
  else if field = 0 then
    finite negative fraction (-1074)
  else
    finite negative (fractionCount + fraction) ((field : Int) - 1075)

/-- The meaning of a `Float`. -/
def ofFloat (x : Float) : Binary64 :=
  ofBits x.toBits.toNat

/-! ### Shortest decimal digits

The numbers that round to `mantissa * 2 ^ exponent` form an interval that reaches half way to
either neighbour and holds its ends if the mantissa is even. Its bounds are kept as whole multiples
of a quarter of the last binary place, so that all comparisons are exact. -/

/-- The interval of numbers that round to a finite number, in units of `2 ^ scale`. -/
structure Interval where
  /-- The lower end. -/
  low : Nat
  /-- The number itself. -/
  mid : Nat
  /-- The upper end. -/
  high : Nat
  /-- Whether the ends belong to the interval. -/
  closed : Bool
  /-- The power of two that is the unit. -/
  scale : Int

/-- The interval around a positive number. The neighbour below a power of two is only half as far
away as the one above, unless there are no smaller steps. -/
def interval (mantissa : Nat) (exponent : Int) : Interval where
  low := if mantissa = fractionCount ∧ exponent ≠ -1074 then 4 * mantissa - 1 else 4 * mantissa - 2
  mid := 4 * mantissa
  high := 4 * mantissa + 2
  closed := mantissa % 2 = 0
  scale := exponent - 2

/-- Whether `n / d`, in units of the interval, lies in the interval. -/
def Interval.holds (i : Interval) (n d : Nat) : Bool :=
  if i.closed then i.low * d ≤ n && n ≤ i.high * d else i.low * d < n && n < i.high * d

/-- The decimal `coefficient * 10 ^ place` that is nearest to the number among those of the given
place that lie in the interval. Only the two neighbours of the number have to be looked at; of two
that are equally near, the even one is taken. -/
def Interval.decimalAt? (i : Interval) (place : Int) : Option Nat :=
  -- One unit is `num / den` steps of the decimal grid.
  let num := Nat.pow 10 (-place).toNat <<< i.scale.toNat
  let den := Nat.pow 10 place.toNat <<< (-i.scale).toNat
  let below := i.mid * num / den
  let rest := i.mid * num % den
  let fits := fun k : Nat => i.holds (k * den) num
  let first := if 2 * rest < den ∨ (2 * rest = den ∧ below % 2 = 0) then below else below + 1
  let second := if first = below then below + 1 else below
  if fits first then some first else if fits second then some second else none

/-- The fewest decimal digits that read back as a positive number, as a coefficient and a power of
ten; of several texts with that many digits the nearest to the number. -/
def shortest (mantissa : Nat) (exponent : Int) : Nat × Int :=
  let i := interval mantissa exponent
  -- A power of ten that exceeds the number, found from its length in bits.
  let bits : Int := (Nat.log2 mantissa : Int) + exponent + 1
  let top : Int := bits * 30103 / 100000 + 2
  let places := (List.range 20).map fun k : Nat => top - (k : Int)
  (places.findSome? fun place =>
    (i.decimalAt? place).bind fun k => if k = 0 then none else some (k, place)).getD
      (mantissa, exponent)

/-- A finite number in scientific notation: one digit, a point with the others if there are any,
and a signed exponent of at least two digits. -/
def scientific (mantissa : Nat) (exponent : Int) : String :=
  let (k, place) := shortest mantissa exponent
  let digits := Nat.toDigits 10 k
  let power := place + (digits.length : Int) - 1
  let tail := digits.drop 1
  let magnitude := Nat.toDigits 10 power.natAbs
  String.ofList (digits.take 1 ++ (if tail.isEmpty then [] else '.' :: tail) ++
    ['e', if power < 0 then '-' else '+'] ++
    List.replicate (2 - magnitude.length) '0' ++ magnitude)

/-- The text of a number in a message. Messages show only numbers that are too large for a
matrix, so that a finite one always stands in scientific notation. -/
def text : Binary64 → String
  | nan => "nan"
  | infinite negative => if negative then "-inf" else "inf"
  | finite negative mantissa exponent =>
    (if negative then "-" else "") ++ (if mantissa = 0 then "0.0" else scientific mantissa exponent)

end Binary64

end ModelPatch
