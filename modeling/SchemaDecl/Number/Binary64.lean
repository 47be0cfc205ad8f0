/-!
# Binary floating-point numbers of 64 bits

A finite number is `± m · 2 ^ e` with `m < 2 ^ 53` and `-1074 ≤ e ≤ 971`; it is kept in the form with
the smallest exponent, so that equal numbers have equal forms, the two zeros apart. `ofDecimal` rounds a
decimal to the nearest number, a tie to the even mantissa.
-/

namespace SchemaDecl

inductive Binary64
  | finite (negative : Bool) (mantissa : Nat) (exponent : Int)
  | infinite (negative : Bool)
  | nan
  deriving DecidableEq, Repr, Inhabited

namespace Binary64

def minExponent : Int := -1074
def maxExponent : Int := 971

def zero (negative : Bool) : Binary64 := .finite negative 0 minExponent

def isFinite : Binary64 → Bool
  | .finite .. => true
  | _ => false

/-- A number other than zero; what is not a number counts as such. -/
def isNonzero : Binary64 → Bool
  | .finite _ m _ => m != 0
  | _ => true

/-- The integer nearest to `n / d`, a tie to the even one. -/
def roundHalfEven (n d : Nat) : Nat :=
  let q := n / d
  let r := n % d
  if 2 * r < d then q else if d < 2 * r then q + 1 else if q % 2 = 0 then q else q + 1

def scale (base n k : Nat) : Nat := n * Nat.pow base k

def powLe (base : Nat) (t : Int) (n d : Nat) : Bool :=
  if 0 ≤ t then scale base d t.toNat ≤ n else d ≤ scale base n (-t).toNat

/-- The number nearest to `n / d`, a tie to the even mantissa. -/
def ofRatio (negative : Bool) (n d : Nat) : Binary64 :=
  if n = 0 then zero negative else
    let t : Int := (n.log2 : Int) - d.log2
    let top := if powLe 2 t n d then t else t - 1
    let e := max (top - 52) minExponent
    let m := if 0 ≤ e then roundHalfEven n (scale 2 d e.toNat) else roundHalfEven (scale 2 n (-e).toNat) d
    let (m, e) := if m = scale 2 1 53 then (scale 2 1 52, e + 1) else (m, e)
    if maxExponent < e then .infinite negative else .finite negative m e

def digitCount (n : Nat) : Nat := (Nat.toDigits 10 n).length

/-- The number nearest to `digits · 10 ^ exponent`. Decimals far outside the range of finite numbers are
settled by their size. -/
def ofDecimal (negative : Bool) (digits : Nat) (exponent : Int) : Binary64 :=
  if digits = 0 then zero negative
  else
    let size := digitCount digits + exponent
    if 400 < size then .infinite negative
    else if size < -400 then zero negative
    else if 0 ≤ exponent then ofRatio negative (scale 10 digits exponent.toNat) 1
    else ofRatio negative digits (scale 10 1 (-exponent).toNat)

/-- Numerator and denominator of a finite magnitude. -/
def ratio (mantissa : Nat) (exponent : Int) : Nat × Nat :=
  if 0 ≤ exponent then (scale 2 mantissa exponent.toNat, 1) else (mantissa, scale 2 1 (-exponent).toNat)

def eqInt (x : Binary64) (i : Int) : Bool :=
  match x with
  | .finite negative m e =>
    let (n, d) := ratio m e
    n = i.natAbs * d && (i = 0 || negative = decide (i < 0))
  | _ => false

/-- Equality of values: the zeros are equal, and what is not a number equals itself. -/
def sameValue (x y : Binary64) : Bool := x = y || (!x.isNonzero && !y.isNonzero)

end Binary64

end SchemaDecl
