/-
Numbers of the binary64 format in exact arithmetic: the value nearest to a ratio of naturals, ties
to the even significand, the value nearest to a decimal, the product of two values, and a value
rounded to a whole number.

A finite value is a significand below 2^53 times a power of two of at least 2^-1074; the
significand is 2^52 or more unless the power is the least one, so each value has one form.
-/

namespace SlideFlow.Number

/-- A value of the binary64 format. -/
inductive Binary64 where
  | finite (negative : Bool) (significand : Nat) (exponent : Int)
  | infinite (negative : Bool)
  | nan
  deriving DecidableEq, Repr

/-! ## Rounding -/

/-- The quotient rounded to the nearest whole number, a tie to the even one. -/
def roundDiv (num den : Nat) : Nat :=
  let q := num / den
  let r := num % den
  if 2 * r > den || (2 * r == den && q % 2 == 1) then q + 1 else q

/-- `n · 2^e` as a ratio. -/
def scaled (n : Nat) (e : Int) : Nat × Nat :=
  if 0 ≤ e then (n * Nat.pow 2 e.toNat, 1) else (n, Nat.pow 2 (-e).toNat)

namespace Binary64

/-- The least power of two of a finite value. -/
def minExponent : Int := -1074

/-- The greatest power of two of a finite value. -/
def maxExponent : Int := 971

def zero (negative : Bool) : Binary64 := .finite negative 0 minExponent

/-- The power of two of the interval [2^k, 2^(k+1)) that holds a positive ratio. -/
def binade (num den : Nat) : Int :=
  let k : Int := (num.log2 : Int) - (den.log2 : Int)
  let (p, q) := scaled 1 k
  if p * den ≤ num * q then k else k - 1

/-- A significand that may have reached 2^53 at a power of two that may be too large. -/
def normalize (negative : Bool) (significand : Nat) (exponent : Int) : Binary64 :=
  let (m, e) :=
    if significand = Nat.pow 2 53 then (Nat.pow 2 52, exponent + 1) else (significand, exponent)
  if e > maxExponent then .infinite negative else .finite negative m e

/-- The value nearest to `± num / den`; a tie goes to the even significand. -/
def ofRatio (negative : Bool) (num den : Nat) : Binary64 :=
  if num = 0 then zero negative
  else
    let e := max (binade num den - 52) minExponent
    let (p, q) := scaled 1 (-e)
    normalize negative (roundDiv (num * p) (den * q)) e

/-- The value nearest to `± digits · 10^exponent`. A decimal far outside the range of the format
never forms its power of ten. -/
def ofDecimal (negative : Bool) (digits : Nat) (exponent : Int) : Binary64 :=
  let magnitude : Int := (Nat.toDigits 10 digits).length + exponent
  if digits = 0 then zero negative
  else if magnitude > 400 then .infinite negative
  else if magnitude < -400 then zero negative
  else if 0 ≤ exponent then ofRatio negative (digits * Nat.pow 10 exponent.toNat) 1
  else ofRatio negative digits (Nat.pow 10 (-exponent).toNat)

def ofNat (n : Nat) : Binary64 := ofRatio false n 1

/-! ## Arithmetic -/

/-- The product, rounded once. -/
def mul : Binary64 → Binary64 → Binary64
  | .finite n m e, .finite n' m' e' =>
    let (p, q) := scaled (m * m') (e + e')
    ofRatio (n != n') p q
  | .nan, _ => .nan
  | _, .nan => .nan
  | .infinite n, .finite n' m _ => if m = 0 then .nan else .infinite (n != n')
  | .finite n m _, .infinite n' => if m = 0 then .nan else .infinite (n != n')
  | .infinite n, .infinite n' => .infinite (n != n')

instance : Mul Binary64 := ⟨mul⟩

/-- The nearest whole number, a tie to the even one; nothing for what is not finite. -/
def round? : Binary64 → Option Int
  | .finite negative m e =>
    let (p, q) := scaled m e
    let n : Int := roundDiv p q
    some (if negative then -n else n)
  | _ => none

/-- The whole part, towards zero; nothing for what is not finite. -/
def truncate? : Binary64 → Option Int
  | .finite negative m e =>
    let (p, q) := scaled m e
    let n : Int := (p / q : Nat)
    some (if negative then -n else n)
  | _ => none

end Binary64

end SlideFlow.Number
