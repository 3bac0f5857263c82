/-!
# Floating-point numbers in decimal

A floating-point number is written by the fewest decimal digits that read back as the same number.

Reference: specification, §3.2 (literals are kept as JSON values, which are written out again in the
steps).

## Main definitions

* `Binary`, `Binary.ofBits` — a positive binary number and its decoding from 64 bits;
* `Binary.onGrid?` — the chosen grid point of one exponent;
* `Binary.shortest` — the grid point of the coarsest grid that has one;
* `floatText` — the written form.
-/

namespace TestFlow.Decimal

/-!
## The shortest decimal that reads back

A binary number `m · 2^q` with `m > 0` stands for every real that rounds to it.  These reals form an
interval around it, half a unit of the last place wide on either side, or a quarter on the lower
side where the unit shrinks below a power of two.  Rounding goes to the even neighbour, so the ends
of the interval belong to it exactly when `m` is even.

The multiples of `10^k` form the grid of exponent `k`.  The coarsest grid that has a point in the
interval gives the decimal with the fewest digits, because all numbers in the interval have nearly
the same size.  Of the grid's points only the two neighbours of the number need a look: if any point
lies inside, one of them does.  When both do, the nearer one is taken, and the even one in a tie.
-/

/-- The number `significand · 2^exponent`. -/
structure Binary where
  significand : Nat
  exponent : Int
  deriving DecidableEq, Repr

/-- The decimal number `digits · 10^exponent`. -/
structure Scaled where
  digits : Nat
  exponent : Int
  deriving DecidableEq, Repr

/-- The smallest significand of a normal 64-bit number, whose format leaves its first bit out. -/
def leastNormal : Nat := 0x10000000000000

/-- The exponent of the smallest positive 64-bit number. -/
def leastExponent : Int := -1074

/-- The magnitude of a finite number in the 64-bit binary format. -/
def Binary.ofBits (bits : UInt64) : Binary :=
  let fraction := bits.toNat % leastNormal
  let biased := bits.toNat / leastNormal % 2048
  -- numbers too small for the first bit to be left out share the least exponent
  if biased = 0 then ⟨fraction, leastExponent⟩
  else ⟨leastNormal + fraction, leastExponent + (biased - 1 : Nat)⟩

/-- The lower end of the interval of reals that round to the number, in quarters of its unit. -/
def Binary.lowQuarters (b : Binary) : Nat :=
  if b.significand = leastNormal ∧ leastExponent < b.exponent then 4 * b.significand - 1
  else 4 * b.significand - 2

/-- The upper end of the interval of reals that round to the number, in quarters of its unit. -/
def Binary.highQuarters (b : Binary) : Nat :=
  4 * b.significand + 2

/-- The multiple of `10^k` that lies in the interval of reals that round to the number: the nearer
one if both neighbours of the number do, and the even one of two equally near.

A quarter of the number's unit and a step of the grid are compared as the whole numbers `quarter`
and `step`, both multiplied by the same powers of two and ten. -/
def Binary.onGrid? (b : Binary) (k : Int) : Option Nat :=
  let quarter := Nat.pow 2 (b.exponent - 2).toNat * Nat.pow 10 (-k).toNat
  let step := Nat.pow 10 k.toNat * Nat.pow 2 (2 - b.exponent).toNat
  let low := b.lowQuarters * quarter
  let high := b.highQuarters * quarter
  let value := 4 * b.significand * quarter
  let inside (x : Nat) : Bool :=
    -- the ends of the interval round to an even significand only
    if b.significand % 2 = 0 then low ≤ x * step && x * step ≤ high
    else low < x * step && x * step < high
  let below := value / step
  let above := below + 1
  match inside below, inside above with
  | false, false => none
  | true, false => some below
  | false, true => some above
  | true, true =>
    let fromBelow := value - below * step
    let fromAbove := above * step - value
    if fromBelow < fromAbove then some below
    else if fromAbove < fromBelow then some above
    else some (if below % 2 = 0 then below else above)

/-- The exponents of the grids to try, the coarsest first.  Every positive 64-bit number lies below
the first grid's step, and the last one resolves seventeen digits of the smallest of them. -/
def gridExponents : List Int :=
  (List.range 652).map fun (i : Nat) => 310 - (i : Int)

/-- The decimal with the fewest digits that reads back as the number, the nearest one of these. -/
def Binary.shortest (b : Binary) : Scaled :=
  (gridExponents.findSome? fun k => (b.onGrid? k).map fun x => ⟨x, k⟩).getD ⟨0, 0⟩

/-!
## Written floating-point numbers

A floating-point number is written by its shortest digits.  The exponent of its leading digit
decides the notation: within `positional` the point stands among the digits, with at least one digit
on either side of it; outside, one digit stands before the point and a signed exponent follows.
-/

/-- The exponents of the leading digit for which a number is written without an exponent. -/
def positional (leading : Int) : Bool :=
  -5 ≤ leading && leading ≤ 15

/-- Digits with the point placed behind the digit of exponent zero, where `leading` is the exponent
of the first of them. -/
def positionalText (digits : List Char) (leading : Int) : List Char :=
  if leading < 0 then
    ['0', '.'] ++ List.replicate (-leading - 1).toNat '0' ++ digits
  else
    let whole := leading.toNat + 1
    let fraction := digits.drop whole
    digits.take whole ++ List.replicate (whole - digits.length) '0' ++ '.' ::
      (if fraction.isEmpty then ['0'] else fraction)

/-- An exponent with its sign. -/
def exponentText (exponent : Int) : List Char :=
  'e' :: (if exponent < 0 then '-' else '+') :: Nat.toDigits 10 exponent.natAbs

/-- Digits with the point behind the first of them and the exponent of that digit. -/
def scientificText (digits : List Char) (leading : Int) : List Char :=
  match digits with
  | [] => exponentText leading
  | [d] => d :: exponentText leading
  | d :: rest => d :: '.' :: rest ++ exponentText leading

/-- A positive decimal number in the notation that its size asks for. -/
def Scaled.text (x : Scaled) : List Char :=
  let digits := Nat.toDigits 10 x.digits
  let leading := x.exponent + (digits.length - 1 : Nat)
  if positional leading then positionalText digits leading else scientificText digits leading

/-- The written form of a floating-point number; one that is not finite has none and is written
`null`. -/
def floatText (x : Float) : List Char :=
  if !x.isFinite then "null".toList
  else
    let bits := x.toBits
    let sign := if bits.toNat / 0x8000000000000000 = 1 then ['-'] else []
    let magnitude := Binary.ofBits bits
    sign ++ (if magnitude.significand = 0 then ['0', '.', '0'] else magnitude.shortest.text)

end TestFlow.Decimal
