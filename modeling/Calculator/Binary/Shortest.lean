import Calculator.Binary.Basic

/-! The shortest decimal text of a binary floating-point number: the fewest significant digits
that read back as the same number, the nearest such digits when several do, and then a layout
that is positional for moderate exponents. -/

namespace Calculator.Binary64

/-- Compares `t · 10^e10` with `a · 2^e2` exactly. -/
def compareScaled (t : Nat) (e10 : Int) (a : Nat) (e2 : Int) : Ordering :=
  Ord.compare (t * Decimal.pow10 (max e10 0).toNat * pow2 (max (-e2) 0).toNat)
    (a * pow2 (max e2 0).toNat * Decimal.pow10 (max (-e10) 0).toNat)

/-- The rounding interval of a positive finite number `m · 2^q`, in units of `2^(q-2)`: its
center, its lower end and its upper end. The gap below is half as wide at the bottom of a binade. -/
def interval (m : Nat) (q : Int) : Nat × Nat × Nat :=
  let lower := if m = pow2 52 ∧ minExp < q then 4 * m - 1 else 4 * m - 2
  (4 * m, lower, 4 * m + 2)

/-- The exponent k with `10^(k-1) ≤ m · 2^q < 10^k`, for m positive. -/
def decimalSize (m : Nat) (q : Int) : Int :=
  let num := m * pow2 (max q 0).toNat
  let den := pow2 (max (-q) 0).toNat
  -- The quotient lies in [10^(k0-1), 10^(k0+1)): one comparison decides.
  let k0 : Int := (Decimal.digitCount num : Int) - Decimal.digitCount den
  if compareScaled 1 k0 m q = .gt then k0 else k0 + 1

/-- Whether the grid point `t · 10^e` lies in the rounding interval; its ends count when the
mantissa is even. -/
def reads (m : Nat) (q : Int) (t : Nat) (e : Int) : Bool :=
  let (_, lower, upper) := interval m q
  let low := compareScaled t e lower (q - 2)
  let high := compareScaled t e upper (q - 2)
  if m % 2 = 0 then low != .lt && high != .gt else low == .gt && high == .lt

/-- Of two grid points that both read back, the one nearer to `m · 2^q`; a tie goes to the even
one. -/
def nearer (m : Nat) (q : Int) (t : Nat) (e : Int) : Nat :=
  -- Distances from the center in units of 10^e · 2^(q-2) scaled to integers.
  let below := compareScaled (2 * t + 1) e (8 * m) (q - 2)
  if below = .lt then t + 1 else if below = .gt then t else if t % 2 = 0 then t else t + 1

/-- The shortest digits of a positive finite number: a coefficient t and exponent e with
`t · 10^e` reading back, tried with 1, 2, … 17 significant digits. -/
def shortestDigits (m : Nat) (q : Int) : Nat × Int :=
  let k := decimalSize m q
  let rec go (n : Nat) (fuel : Nat) : Nat × Int :=
    let e := k - n
    -- The two neighbours of the value on the grid of 10^e.
    let num := m * pow2 (max q 0).toNat * Decimal.pow10 (max (-e) 0).toNat
    let den := pow2 (max (-q) 0).toNat * Decimal.pow10 (max e 0).toNat
    let t := num / den
    let lowReads := reads m q t e
    let highReads := reads m q (t + 1) e
    match fuel with
    | 0 => (t, e)
    | fuel + 1 =>
      if lowReads && highReads then (nearer m q t e, e)
      else if lowReads then (t, e)
      else if highReads then (t + 1, e)
      else go (n + 1) fuel
  go 1 17

/-- Layout rules of the shortest text: positional for decimal point positions from -3 to 16,
otherwise one digit, a point when more follow, and an exponent of at least two digits. -/
def layout (negative : Bool) (ds : List Char) (point : Int) : String :=
  let sign := if negative then "-" else ""
  if point ≤ -4 ∨ 16 < point then
    let exponent := point - 1
    let expDigits := Decimal.digitList exponent.natAbs
    let expText := (if exponent < 0 then "-" else "+") ++
      String.ofList (List.replicate (2 - expDigits.length) '0' ++ expDigits)
    let mantissa := match ds with
      | [] => "0"
      | [d] => String.singleton d
      | d :: rest => String.singleton d ++ "." ++ String.ofList rest
    sign ++ mantissa ++ "e" ++ expText
  else if point ≤ 0 then
    sign ++ "0." ++ String.ofList (List.replicate (-point).toNat '0' ++ ds)
  else if ds.length ≤ point.toNat then
    sign ++ String.ofList (ds ++ List.replicate (point.toNat - ds.length) '0') ++ ".0"
  else
    sign ++ String.ofList (ds.take point.toNat) ++ "." ++ String.ofList (ds.drop point.toNat)

/-- Removes trailing zero digits. -/
def dropTrailingZeros (ds : List Char) : List Char :=
  (ds.reverse.dropWhile (· = '0')).reverse

/-- The shortest text of a floating-point number, with `inf`, `-inf` and `nan` for the special
values and `0.0` or `-0.0` for zeros. -/
def toText : Binary64 → String
  | .nan => "nan"
  | .infinity negative => if negative then "-inf" else "inf"
  | .finite negative m q =>
    if m = 0 then (if negative then "-0.0" else "0.0")
    else
      let (t, e) := shortestDigits m q
      let all := Decimal.digitList t
      layout negative (dropTrailingZeros all) (e + all.length)

end Calculator.Binary64
