import Rulebook.Number.Binary64

/-!
# Numbers — the shortest decimal

A double is written with the fewest decimal digits that read back as the same double, and among
those with the ones nearest to it.

* `Decimal.ofDouble`: the digits and their scale.  On a decimal grid only the two neighbours of
  the value are tried, and the coarsest grid with a neighbour that reads back is taken.
* `NumberLayout` is how digits are laid out; `NumberLayout.write` lays a double out.
-/

namespace Rulebook

/-- `digits · 10 ^ scale`. -/
structure Decimal where
  digits : Nat
  scale : Int
  deriving DecidableEq, Repr

namespace Decimal

/-- Compares `m · 2 ^ q` with `n · 10 ^ k`. -/
def compareDyadic (m : Nat) (q : Int) (n : Nat) (k : Int) : Ordering :=
  compare (m * power 2 q * power 10 (-k)) (n * power 10 k * power 2 (-q))

/-- The grid point `n · 10 ^ k` below or at `m · 2 ^ q`, as `n`. -/
def floorOnGrid (m : Nat) (q k : Int) : Nat :=
  m * power 2 q * power 10 (-k) / (power 2 (-q) * power 10 k)

/-- Whether `n · 10 ^ k` rounds to the double `m · 2 ^ q`.  The reals that do reach half way to
the neighbours, which is a quarter of a unit below a power of two; the ends belong to an even
significand. -/
def roundsTo (m : Nat) (q : Int) (n : Nat) (k : Int) : Bool :=
  let below := if m = power 2 52 ∧ Format.double.lowest < q then 4 * m - 1 else 4 * m - 2
  let above := 4 * m + 2
  let low := compareDyadic below (q - 2) n k
  let high := compareDyadic above (q - 2) n k
  if m % 2 = 0 then low.isLE && high.isGE else low == .lt && high == .gt

/-- Of the two neighbours of `m · 2 ^ q` on the grid of `10 ^ k` the one that rounds to it; of
two the nearer, of two equally near the even one. -/
def onGrid? (m : Nat) (q k : Int) : Option Decimal :=
  let n := floorOnGrid m q k
  match roundsTo m q n k, roundsTo m q (n + 1) k with
  | false, false => none
  | true, false => some ⟨n, k⟩
  | false, true => some ⟨n + 1, k⟩
  | true, true =>
    match compareDyadic (2 * m) q (2 * n + 1) k with
    | .lt => some ⟨n, k⟩
    | .gt => some ⟨n + 1, k⟩
    | .eq => some ⟨if n % 2 = 0 then n else n + 1, k⟩

/-- A power of ten above `m · 2 ^ q`, not far above: 0.30103 is a little more than `log 2`. -/
def gridAbove (m : Nat) (q : Int) : Int := (((m.log2 : Int) + 1 + q) * 30103).fdiv 100000 + 1

/-- The shortest decimal that reads back as the double `m · 2 ^ q`, for `0 < m`. -/
def ofDouble (m : Nat) (q : Int) : Decimal :=
  let top := gridAbove m q
  ((List.range 24).findSome? fun i : Nat => onGrid? m q (top - i)).getD ⟨m, 0⟩

end Decimal

/-- How the digits of a number are laid out.  With `e` the exponent of the leading digit, the
number is positional for `positionalFrom ≤ e < positionalBelow`, and else has an exponent of at
least `exponentDigits` digits, after `plus` if it is not negative.  A whole number that is
positional ends in `wholeEnd`. -/
structure NumberLayout where
  positionalFrom : Int
  positionalBelow : Int
  plus : List Char
  exponentDigits : Nat
  wholeEnd : List Char
  infinity : String
  notANumber : String

namespace NumberLayout

/-- The digits of a number whose leading digit has exponent `e`, around the decimal point. -/
def positional (layout : NumberLayout) (digits : List Char) (e : Int) : List Char :=
  if e < 0 then '0' :: '.' :: List.replicate (-e - 1).toNat '0' ++ digits
  else
    let whole := digits.take (e + 1).toNat
    let fraction := digits.drop (e + 1).toNat
    whole ++ List.replicate ((e + 1).toNat - digits.length) '0' ++
      if fraction = [] then layout.wholeEnd else '.' :: fraction

/-- The digits of a number with one of them before the point, and the exponent. -/
def scientific (layout : NumberLayout) (digits : List Char) (e : Int) : List Char :=
  let mantissa := match digits with
    | d :: f :: ds => d :: '.' :: f :: ds
    | ds => ds
  let size := Nat.toDigits 10 e.natAbs
  mantissa ++ 'e' :: (if e < 0 then ['-'] else layout.plus) ++
    List.replicate (layout.exponentDigits - size.length) '0' ++ size

/-- A double, laid out. -/
def write (layout : NumberLayout) : Binary64 → String
  | .nan => layout.notANumber
  | .infinite negative => (if negative then "-" else "") ++ layout.infinity
  | .finite negative m q =>
    let d := if m = 0 then ⟨0, 0⟩ else Decimal.ofDouble m q
    let digits := Nat.toDigits 10 d.digits
    let e := d.scale + digits.length - 1
    let cs := if layout.positionalFrom ≤ e ∧ e < layout.positionalBelow then
        layout.positional digits e
      else layout.scientific digits e
    (if negative then "-" else "") ++ String.ofList cs

/-- Positional from `0.0001` up to sixteen digits before the point, always with a digit after it;
else an exponent with its sign and at least two digits. -/
def plain : NumberLayout := ⟨-4, 16, ['+'], 2, ['.', '0'], "inf", "nan"⟩

/-- Always positional, a whole number without a point: how a number stands in a column of text.
Every double lies between `10 ^ -324` and `10 ^ 309`. -/
def cell : NumberLayout := ⟨-324, 309, [], 1, [], "inf", "NaN"⟩

end NumberLayout

/-- The shortest text of a double. -/
def Binary64.text (x : Binary64) : String := NumberLayout.plain.write x

end Rulebook
