/-
The decimal text of a binary64 value: the fewest digits that are nearer to it than to every other
value, the nearest such decimal, a tie to the even last digit. Digits first, layout apart.

A finite value owns the decimals between the midpoints to its two neighbours, the midpoints
included if its significand is even. For one digit, two digits and so on the two decimals around
the value are tried on that grid; seventeen digits always suffice.
-/
import SlideFlow.Number.Binary64

namespace SlideFlow.Number.Binary64

/-! ## Digits -/

/-- The decimals that read as a positive finite value, over a common denominator: the value is
`value / den`, and it owns what lies between `low / den` and `high / den`. -/
structure Basin where
  value : Nat
  low : Nat
  high : Nat
  den : Nat
  closed : Bool
  deriving DecidableEq, Repr

/-- The basin of `m · 2^e`. Below a power of two the lower neighbour is twice as near. -/
def basin (m : Nat) (e : Int) : Basin :=
  let (p, q) := scaled 1 e
  let narrow := m = Nat.pow 2 52 ∧ e > minExponent
  { value := 4 * m * p
    low := (4 * m - if narrow then 1 else 2) * p
    high := (4 * m + 2) * p
    den := 4 * q
    closed := m % 2 == 0 }

/-- `num / den` lies in the basin. -/
def Basin.holds (b : Basin) (num den : Nat) : Bool :=
  if b.closed then decide (b.low * den ≤ num * b.den) && decide (num * b.den ≤ b.high * den)
  else decide (b.low * den < num * b.den) && decide (num * b.den < b.high * den)

/-- `n · 10^e` as a ratio. -/
def decimalRatio (n : Nat) (e : Int) : Nat × Nat :=
  if 0 ≤ e then (n * Nat.pow 10 e.toNat, 1) else (n, Nat.pow 10 (-e).toNat)

/-- The decimal of the grid `10^e` that lies in the basin and is nearest to its value. -/
def Basin.onGrid (b : Basin) (e : Int) : Option Nat :=
  let (p, q) := decimalRatio 1 e
  -- the value in units of the grid
  let num := b.value * q
  let den := b.den * p
  let n := num / den
  let holds (k : Nat) := b.holds (k * p) q
  match holds n, holds (n + 1) with
  | false, false => none
  | true, false => some n
  | false, true => some (n + 1)
  | true, true => some (roundDiv num den)

/-- The least power of ten above `num / den`, searched upwards from `k`. -/
def decade (num den : Nat) : Nat → Int → Int
  | 0, k => k
  | fuel + 1, k =>
    let (p, q) := decimalRatio 1 k
    if num * q < p * den then k else decade num den fuel (k + 1)

/-- Trailing zeros move from the digits into the power of ten. -/
def dropZeros : Nat → Nat → Int → Nat × Int
  | 0, n, e => (n, e)
  | fuel + 1, n, e =>
    if n % 10 = 0 ∧ n ≠ 0 then dropZeros fuel (n / 10) (e + 1) else (n, e)

/-- The shortest decimal of a positive finite value, as digits and a power of ten. -/
def shortest (m : Nat) (e : Int) : Nat × Int :=
  let b := basin m e
  -- an estimate of the decade that is never too high, and close
  let low : Int := (((m.log2 : Int) + e) * 30103) / 100000 - 1
  let top := decade b.value b.den 5 low
  let found := (List.range 17).findSome? fun k =>
    let grid := top - (k + 1 : Nat)
    (b.onGrid grid).map fun n => (n, grid)
  match found with
  | some (n, grid) => dropZeros 18 n grid
  | none => (0, 0)

/-! ## Layout -/

/-- How a decimal is laid out as text. -/
structure Layout where
  /-- Exponents of the leading digit that are written without an exponent. -/
  positionalFrom : Int
  positionalBelow : Int
  infinity : String
  negativeInfinity : String
  notANumber : String

/-- The exponent with its sign and at least two digits. -/
def exponentText (e : Int) : List Char :=
  let digits := Nat.toDigits 10 e.natAbs
  (if e < 0 then '-' else '+') :: (if digits.length < 2 then '0' :: digits else digits)

/-- The text of a positive decimal; a whole number keeps `.0`. -/
def Layout.positive (l : Layout) (n : Nat) (e : Int) : List Char :=
  let digits := Nat.toDigits 10 n
  let lead : Int := digits.length + e - 1
  if l.positionalFrom ≤ lead ∧ lead < l.positionalBelow then
    if 0 ≤ e then digits ++ List.replicate e.toNat '0' ++ ['.', '0']
    else if 0 ≤ lead then
      digits.take (lead.toNat + 1) ++ '.' :: digits.drop (lead.toNat + 1)
    else '0' :: '.' :: List.replicate (-lead - 1).toNat '0' ++ digits
  else
    match digits with
    | [d] => d :: 'e' :: exponentText lead
    | d :: rest => d :: '.' :: rest ++ 'e' :: exponentText lead
    | [] => []

/-- The text of a value. -/
def Layout.text (l : Layout) : Binary64 → String
  | .nan => l.notANumber
  | .infinite negative => if negative then l.negativeInfinity else l.infinity
  | .finite negative m e =>
    let sign := if negative then ['-'] else []
    let body := if m = 0 then ['0', '.', '0'] else
      let (n, k) := shortest m e
      l.positive n k
    String.ofList (sign ++ body)

end SlideFlow.Number.Binary64
