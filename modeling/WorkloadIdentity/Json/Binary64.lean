/-! Double precision numbers as exact dyadic values, in integer arithmetic alone:
rounding of a ratio to nearest with ties to even, products and quotients by powers of
ten, and the shortest decimal that rounds back. -/

set_option autoImplicit false

namespace WorkloadIdentity

/-- The value `mantissa * 2 ^ exponent`, negated if `negative`. -/
structure Binary64 where
  negative : Bool
  mantissa : Nat
  exponent : Int
  deriving DecidableEq, Repr

namespace Binary64

def zero (negative : Bool) : Binary64 := ⟨negative, 0, -1074⟩

/-- A nonnegative rational, numerator and denominator. -/
abbrev Ratio := Nat × Nat

def halfEven (n d : Nat) : Nat :=
  let q := n / d
  let r := n % d
  if 2 * r < d then q else if 2 * r = d ∧ q % 2 = 0 then q else q + 1

/-- The ratio over `base ^ e`. -/
def shift (base : Nat) (r : Ratio) (e : Int) : Ratio :=
  if 0 ≤ e then (r.1, r.2 * Nat.pow base e.toNat) else (r.1 * Nat.pow base (-e).toNat, r.2)

/-- The `e` with `2 ^ e ≤ r < 2 ^ (e + 1)`, for a positive ratio. -/
def binade (r : Ratio) : Int :=
  let e : Int := (Nat.log2 r.1 : Int) - Nat.log2 r.2
  let s := shift 2 r e
  if s.1 < s.2 then e - 1 else e

/-- The nearest double; `none` beyond the largest one. -/
def ofRatio? (r : Ratio) : Option Binary64 :=
  if r.1 = 0 then some (zero false)
  else
    let e := max (binade r - 52) (-1074)
    let s := shift 2 r e
    let m := halfEven s.1 s.2
    let (m, e) := if m = Nat.pow 2 53 then (Nat.pow 2 52, e + 1) else (m, e)
    if 971 < e then none else some ⟨false, m, e⟩

/-- The magnitude as a ratio. -/
def ratio (x : Binary64) : Ratio :=
  if 0 ≤ x.exponent then (x.mantissa * Nat.pow 2 x.exponent.toNat, 1)
  else (x.mantissa, Nat.pow 2 (-x.exponent).toNat)

/-- The nearest double to `10 ^ k`, as a ratio. -/
def powerOfTen (k : Nat) : Ratio :=
  match ofRatio? (Nat.pow 10 k, 1) with
  | some p => p.ratio
  | none => (Nat.pow 10 k, 1)

/-- Scales by a power of ten in steps of at most 308 digits, rounding each time. -/
def scale? : Nat → Binary64 → Int → Option Binary64
  | 0, _, _ => some (zero false)
  | steps + 1, x, k =>
    if k.natAbs ≤ 308 then
      let p := powerOfTen k.natAbs
      let r := x.ratio
      if 0 ≤ k then ofRatio? (r.1 * p.1, r.2 * p.2) else ofRatio? (r.1 * p.2, r.2 * p.1)
    else if x.mantissa = 0 then some x
    else if 0 < k then none
    else
      let p := powerOfTen 308
      let r := x.ratio
      match ofRatio? (r.1 * p.2, r.2 * p.1) with
      | some y => scale? steps y (k + 308)
      | none => none

/-- Reads `significand * 10 ^ exponent`. Four steps of 308 digits take every 64-bit
significand to zero. -/
def ofDecimal? (negative : Bool) (significand : Nat) (exponent : Int) : Option Binary64 := do
  let x ← ofRatio? (significand, 1)
  let y ← scale? 4 x exponent
  return { y with negative := negative }

/-- The ends of the interval that rounds to `x`, in quarters of its last place. The
value itself is at four times the mantissa. -/
def interval (x : Binary64) : Nat × Nat :=
  let m := 4 * x.mantissa
  if x.mantissa = Nat.pow 2 52 ∧ -1074 < x.exponent then (m - 1, m + 2) else (m - 2, m + 2)

/-- Whether the decimal `d * 10 ^ k` rounds to `x`. -/
def reads (x : Binary64) (d : Nat) (k : Int) : Bool :=
  let quarter := shift 2 (shift 10 (d, 1) (-k)) (x.exponent - 2)
  let (lo, hi) := interval x
  if x.mantissa % 2 = 0 then
    decide (lo * quarter.2 ≤ quarter.1) && decide (quarter.1 ≤ hi * quarter.2)
  else
    decide (lo * quarter.2 < quarter.1) && decide (quarter.1 < hi * quarter.2)

/-- The `e` with `10 ^ e ≤ r < 10 ^ (e + 1)`, searched downwards from `e`. -/
def decade (r : Ratio) : Nat → Int → Int
  | 0, e => e
  | fuel + 1, e =>
    let s := shift 10 r e
    if s.1 < s.2 then decade r fuel (e - 1) else e

/-- The nearest decimal with `digits` digits that rounds to `x`, if there is one. -/
def decimalAt? (x : Binary64) (top : Int) (digits : Nat) : Option (Nat × Int) :=
  let k := top - digits + 1
  let s := shift 10 x.ratio k
  let d := s.1 / s.2
  let below := reads x d k
  let above := reads x (d + 1) k
  let nearer := halfEven s.1 s.2
  if below && above then some (nearer, k)
  else if below then some (d, k)
  else if above then some (d + 1, k)
  else none

/-- The shortest decimal that rounds to `x`, as an integer and a power of ten. -/
def shortest (x : Binary64) : Nat × Int :=
  let top := decade x.ratio 700 309
  ((List.range 17).findSome? fun n => decimalAt? x top (n + 1)).getD (0, 0)

/-- Drops the trailing zeros of a decimal. -/
def strip : Nat → Nat × Int → Nat × Int
  | 0, d => d
  | fuel + 1, (d, k) => if d ≠ 0 ∧ d % 10 = 0 then strip fuel (d / 10, k + 1) else (d, k)

/-- The text always shows a fraction or an exponent; it is positional for decimal
points from five places before the digits to sixteen places after their start. -/
def digits (x : Binary64) : List Char :=
  if x.mantissa = 0 then ['0', '.', '0']
  else
    let (d, k) := strip 20 x.shortest
    let ds := Nat.toDigits 10 d
    let point : Int := ds.length + k
    if 0 ≤ k ∧ point ≤ 16 then ds ++ List.replicate k.toNat '0' ++ ['.', '0']
    else if 0 < point ∧ point ≤ 16 then
      ds.take point.toNat ++ ['.'] ++ ds.drop point.toNat
    else if -5 < point ∧ point ≤ 0 then
      ['0', '.'] ++ List.replicate (-point).toNat '0' ++ ds
    else
      let e := point - 1
      let tail := 'e' :: ((if e < 0 then ['-'] else []) ++ Nat.toDigits 10 e.natAbs)
      match ds with
      | [d] => d :: tail
      | d :: rest => d :: '.' :: rest ++ tail
      | [] => tail

def text (x : Binary64) : List Char := if x.negative then '-' :: x.digits else x.digits

end Binary64

end WorkloadIdentity
