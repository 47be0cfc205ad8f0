import SchemaDecl.Number.Binary64

/-!
# The shortest decimal text of a number

`shortest` finds the fewest digits that read back as the number, the nearest of those decimals, and
`text` writes them: positional between `1e-4` and `1e16`, with at least one place after the point, and
in scientific form with an exponent of two digits or more elsewhere.
-/

namespace SchemaDecl.Binary64

/-- The exponent `p` with `10 ^ p ≤ n / d < 10 ^ (p + 1)`, for a positive ratio. -/
def decimalExponent (n d : Nat) : Int :=
  let t : Int := (digitCount n : Int) - digitCount d
  if powLe 10 t n d then t else t - 1

/-- The decimals with `k` digits on either side of `n / d`, the nearer one first, with the exponent of
their last digit. -/
def neighbours (n d : Nat) (k : Nat) : List Nat × Int :=
  let unit := decimalExponent n d - (k : Int) + 1
  let (n, d) := if 0 ≤ unit then (n, scale 10 d unit.toNat) else (scale 10 n (-unit).toNat, d)
  let below := n / d
  let r := n % d
  let belowFirst := 2 * r < d || (2 * r = d && below % 2 = 0)
  (if belowFirst then [below, below + 1] else [below + 1, below], unit)

/-- The first of the decimals with `k` digits that reads back as `x`. -/
def readsBack (mantissa : Nat) (exponent : Int) (k : Nat) : Option (Nat × Int) :=
  let (n, d) := ratio mantissa exponent
  let (candidates, unit) := neighbours n d k
  (candidates.find? fun digits => ofDecimal false digits unit = .finite false mantissa exponent).map
    fun digits => (digits, unit)

/-- Digits and exponent of the shortest decimal that reads back. Seventeen digits always suffice. -/
def shortest (mantissa : Nat) (exponent : Int) : Nat × Int :=
  ((List.range 17).findSome? fun k => readsBack mantissa exponent (k + 1)).getD (0, 0)

/-- Digits without zeros at the end, and the exponent that makes up for them. -/
def dropZeros (digits : List Char) (exponent : Int) : List Char × Int :=
  let kept := (digits.reverse.dropWhile (· = '0')).reverse
  (kept, exponent + (digits.length - kept.length : Nat))

def zeros (n : Nat) : List Char := List.replicate n '0'

/-- Digits with the point after the first `point` of them. -/
def positional (digits : List Char) (point : Int) : List Char :=
  if point ≤ 0 then ['0', '.'] ++ zeros (-point).toNat ++ digits
  else if digits.length ≤ point then digits ++ zeros (point.toNat - digits.length) ++ ['.', '0']
  else digits.take point.toNat ++ ['.'] ++ digits.drop point.toNat

def scientific (digits : List Char) (power : Int) : List Char :=
  let mark := match digits with
    | [] => []
    | [c] => [c]
    | c :: rest => c :: '.' :: rest
  let size := Nat.toDigits 10 power.natAbs
  let size := if size.length < 2 then '0' :: size else size
  mark ++ ['e', if power < 0 then '-' else '+'] ++ size

def magnitudeText (mantissa : Nat) (exponent : Int) : List Char :=
  let (digits, unit) := shortest mantissa exponent
  let (digits, unit) := dropZeros (Nat.toDigits 10 digits) unit
  let point := (digits.length : Int) + unit
  if -4 < point ∧ point ≤ 16 then positional digits point else scientific digits (point - 1)

def sign (negative : Bool) : String := if negative then "-" else ""

/-- The text of a number; `infinity` and `notNumber` are the words for the values that are no decimals. -/
def textWith (infinity notNumber : String) : Binary64 → String
  | .nan => notNumber
  | .infinite negative => sign negative ++ infinity
  | .finite negative m e =>
    sign negative ++ (if m = 0 then "0.0" else String.ofList (magnitudeText m e))

def text : Binary64 → String := textWith "inf" "nan"

end SchemaDecl.Binary64
