/-!
# Numbers — double precision

A double is not a number, an infinity, or `± significand · 2 ^ exponent`.  The two zeros are
distinct values at the same point of the line.

* `Extended`: the points a number can lie at, integers of any size included; `Extended.compare`
  compares them exactly, in integers.
* `Format.round`: the value of a format nearest to a quotient of natural numbers, a tie going to
  the even significand; out of range it is infinite.
* `Binary64.add`, `Binary64.divNat`: the exact sum and quotient, rounded once.
-/

namespace Rulebook

/-- The power of a base at an integer exponent, one where the exponent is negative: `b ^ e` is
`power b e / power b (-e)`. -/
def power (b : Nat) (e : Int) : Nat := Nat.pow b e.toNat

/-- A double-precision number. -/
inductive Binary64
  | nan
  | infinite (negative : Bool)
  | finite (negative : Bool) (significand : Nat) (exponent : Int)
  deriving DecidableEq, Repr

/-! ### The line -/

/-- A point of the extended line: `significand · 2 ^ exponent`, or one of its ends. -/
inductive Extended
  | bottom
  | dyadic (significand exponent : Int)
  | top
  deriving Repr

namespace Extended

/-- The place of an integer. -/
def ofInt (n : Int) : Extended := .dyadic n 0

/-- The significand of `m · 2 ^ e` at an exponent `low ≤ e`. -/
def rescale (m e low : Int) : Int := m * power 2 (e - low)

/-- The order of the line, exact: both points are brought to the smaller exponent. -/
protected def compare : Extended → Extended → Ordering
  | .bottom, .bottom => .eq
  | .bottom, _ => .lt
  | _, .bottom => .gt
  | .top, .top => .eq
  | .top, _ => .gt
  | _, .top => .lt
  | .dyadic m e, .dyadic m' e' =>
    let low := min e e'
    Ord.compare (rescale m e low) (rescale m' e' low)

end Extended

/-! ### Rounding -/

/-- `num / den` as an integer, rounded to the nearest; a half goes to the even neighbour. -/
def roundHalfEven (num den : Nat) : Nat :=
  let q := num / den
  let r := num % den
  if 2 * r < den then q
  else if den < 2 * r then q + 1
  else if q % 2 = 0 then q else q + 1

/-- A binary format: how many bits a significand has, and the exponents it may stand at. -/
structure Format where
  precision : Nat
  lowest : Int
  highest : Int

namespace Format

def double : Format := ⟨53, -1074, 971⟩
def single : Format := ⟨24, -149, 104⟩

end Format

/-- `num / (den · 2 ^ e)` as a quotient of natural numbers. -/
def scaled (num den : Nat) (e : Int) : Nat × Nat :=
  (num * power 2 (-e), den * power 2 e)

/-- The `k` with `2 ^ k ≤ num / den < 2 ^ (k + 1)`. -/
def binade (num den : Nat) : Int :=
  let k : Int := (num.log2 : Int) - (den.log2 : Int)
  let (n, d) := scaled num den k
  if d ≤ n then k else k - 1

/-- `± num / den`, rounded to the nearest value of the format. -/
def Format.round (f : Format) (negative : Bool) (num den : Nat) : Binary64 :=
  if num = 0 then .finite negative 0 f.lowest
  else
    let e := max f.lowest (binade num den - (f.precision - 1 : Nat))
    let (n, d) := scaled num den e
    let m := roundHalfEven n d
    let (m, e) := if m = power 2 f.precision then (power 2 (f.precision - 1), e + 1) else (m, e)
    if f.highest < e then .infinite negative else .finite negative m e

namespace Binary64

def zero : Binary64 := .finite false 0 Format.double.lowest

def isNaN : Binary64 → Bool
  | .nan => true
  | _ => false

/-- Where a double lies; nowhere, if it is not a number. -/
def place? : Binary64 → Option Extended
  | .nan => none
  | .infinite true => some .bottom
  | .infinite false => some .top
  | .finite negative m e => some (.dyadic (if negative then -(m : Int) else m) e)

/-- The order of two doubles; none, if one of them is not a number. -/
def compare? (x y : Binary64) : Option Ordering := do
  return (← x.place?).compare (← y.place?)

/-- The double nearest to `± m · 2 ^ e`. -/
def ofDyadic (negative : Bool) (m : Nat) (e : Int) : Binary64 :=
  Format.double.round negative (m * power 2 e) (power 2 (-e))

/-- The double nearest to an integer. -/
def ofInt (n : Int) : Binary64 := Format.double.round (decide (n < 0)) n.natAbs 1

/-- The double with the value that single precision gives to `x`. -/
def toSingle : Binary64 → Binary64
  | .finite negative m e =>
    match Format.single.round negative (m * power 2 e) (power 2 (-e)) with
    | .finite negative m e => ofDyadic negative m e
    | x => x
  | x => x

protected def neg : Binary64 → Binary64
  | .nan => .nan
  | .infinite negative => .infinite (!negative)
  | .finite negative m e => .finite (!negative) m e

/-- The exact sum, rounded; the sum of two negative zeros is the negative one, every other sum
at zero is the positive one. -/
protected def add : Binary64 → Binary64 → Binary64
  | .nan, _ => .nan
  | _, .nan => .nan
  | .infinite a, .infinite b => if a = b then .infinite a else .nan
  | .infinite a, _ => .infinite a
  | _, .infinite b => .infinite b
  | .finite a m e, .finite b n k =>
    let low := min e k
    let sum := Extended.rescale (if a then -(m : Int) else m) e low
      + Extended.rescale (if b then -(n : Int) else n) k low
    if sum = 0 then .finite (a && b) 0 Format.double.lowest
    else ofDyadic (decide (sum < 0)) sum.natAbs low

/-- The exact quotient by a positive natural number, rounded. -/
def divNat : Binary64 → Nat → Binary64
  | .finite negative m e, n =>
    Format.double.round negative (m * power 2 e) (n * power 2 (-e))
  | x, _ => x

/-- The integer part, toward zero; an infinity and a double that is not a number have none. -/
def truncate? : Binary64 → Option Int
  | .finite negative m e =>
    let n := m * power 2 e / power 2 (-e)
    some (if negative then -(n : Int) else n)
  | _ => none

/-- The integer a double is equal to. -/
def toInt? (x : Binary64) : Option Int := do
  let n ← x.truncate?
  if (← x.place?).compare (.ofInt n) = .eq then some n else none

/-- Whether an integer is in the range of the doubles, once rounded. -/
def inRange (n : Int) : Bool :=
  match ofInt n with
  | .infinite _ => false
  | _ => true

end Binary64

end Rulebook
