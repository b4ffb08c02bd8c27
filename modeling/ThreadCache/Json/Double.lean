/-!
# Doubles

Finite binary numbers of 53 significant bits, with the two exact rules that the text of a number
needs: how a decimal is rounded to a double, and the shortest decimal that reads back.
-/

namespace ThreadCache

/-- A finite double: its sign, and the number of nonnegative doubles below its absolute value. -/
structure Double where
  negative : Bool
  rank : Nat
  deriving DecidableEq, Repr, Inhabited

namespace Double

/-- The number of doubles from one power of two to the next. -/
def binade : Nat := Nat.pow 2 52

def rankLimit : Nat := 2047 * binade

/-- The significand and the power of two of the double of a rank. -/
def parts (rank : Nat) : Nat × Int :=
  if rank < binade then (rank, -1074)
  else (rank % binade + binade, rank / binade - 1075)

/-- The quotient rounded to the nearest whole number, halves to the even one. -/
def roundQuotient (num den : Nat) : Nat :=
  let whole := num / den
  let twice := 2 * (num % den)
  if twice < den || (twice == den && whole % 2 == 0) then whole else whole + 1

/-- `num / den` scaled by a power of two, as a new numerator and denominator. -/
def scaleTwo (num den : Nat) (power : Int) : Nat × Nat :=
  (num * Nat.pow 2 power.toNat, den * Nat.pow 2 (-power).toNat)

/--
The rank of the double nearest to `num / den`, an even significand winning a tie; none if that
is not below the limit. A significand that rounds up to the next power of two carries into the
next binade by itself, because ranks are consecutive.
-/
def nearest (num den : Nat) : Option Nat :=
  if num = 0 then some 0
  else
    -- The bit lengths give the power of two, or one more than it. Powers stop at -1074, below which
    -- significands get shorter.
    let guess : Int := (num.log2 : Int) - den.log2 - 52
    let wide := scaleTwo num den (-guess)
    let power := max (-1074) (if wide.1 < binade * wide.2 then guess - 1 else guess)
    let scaled := scaleTwo num den (-power)
    let rank := (power + 1074).toNat * binade + roundQuotient scaled.1 scaled.2
    if rank < rankLimit then some rank else none

/-- The absolute value of the double of a rank, as numerator and denominator. -/
def ratio (rank : Nat) : Nat × Nat :=
  let p := parts rank
  scaleTwo p.1 1 p.2

def times (a b : Nat) : Option Nat :=
  nearest ((ratio a).1 * (ratio b).1) ((ratio a).2 * (ratio b).2)

def dividedBy (a b : Nat) : Option Nat :=
  nearest ((ratio a).1 * (ratio b).2) ((ratio a).2 * (ratio b).1)

def largestPower : Nat := 308

/--
The rank of a significand times a power of ten: the significand is rounded to a double first, and
the rounded result is multiplied or divided by a rounded power of ten. Exponents below the table
of powers are reached in several divisions; exponents above it have no double unless the
significand is zero.
-/
def scaleTen (rank : Nat) (exponent : Int) : Option Nat :=
  if exponent.natAbs ≤ largestPower then do
    let power ← nearest (Nat.pow 10 exponent.natAbs) 1
    if 0 ≤ exponent then times rank power else dividedBy rank power
  else if rank = 0 then some 0
  else if 0 ≤ exponent then none
  else do
    let power ← nearest (Nat.pow 10 largestPower) 1
    let smaller ← dividedBy rank power
    scaleTen smaller (exponent + largestPower)
termination_by exponent.natAbs
decreasing_by simp [largestPower] at *; omega

def ofDecimal (negative : Bool) (significand : Nat) (exponent : Int) : Option Double := do
  let rank ← nearest significand 1
  return ⟨negative, ← scaleTen rank exponent⟩

/-! ## Shortest text -/

/--
Whether a decimal lies among the reals that round to the double of a rank: within half a step on
either side, the step below a power of two being half as long, and the ends belonging to even
significands.
-/
def absorbs (rank : Nat) (digits : Nat) (exponent : Int) : Bool :=
  let p := parts rank
  -- Counted in quarters of a step, for every bound to be a whole number.
  let below := if p.1 = binade ∧ -1074 < p.2 then 1 else 2
  let unit := p.2 - 2
  let point := digits * Nat.pow 10 exponent.toNat * Nat.pow 2 (-unit).toNat
  let side := fun (n : Nat) => n * Nat.pow 2 unit.toNat * Nat.pow 10 (-exponent).toNat
  if p.1 % 2 = 0 then side (4 * p.1 - below) ≤ point && point ≤ side (4 * p.1 + 2)
  else side (4 * p.1 - below) < point && point < side (4 * p.1 + 2)

/-- The power of ten of the first digit of a positive double. -/
def leadingPower (rank : Nat) : Int :=
  -- A positive double times the 400th power of ten is above one.
  let r := ratio rank
  ((Nat.toDigits 10 (r.1 * Nat.pow 10 400 / r.2)).length : Int) - 401

/-- The decimal with a given number of digits that reads back as the double, the nearer of two. -/
def digitsOfLength? (rank : Nat) (length : Nat) : Option (Nat × Int) :=
  let exponent := leadingPower rank + 1 - length
  let r := ratio rank
  let num := r.1 * Nat.pow 10 (-exponent).toNat
  let den := r.2 * Nat.pow 10 exponent.toNat
  let low := num / den
  -- The double lies between two decimals of this length, and only they can be nearest to it.
  match absorbs rank low exponent, absorbs rank (low + 1) exponent with
  | true, true => some (roundQuotient num den, exponent)
  | true, false => some (low, exponent)
  | false, true => some (low + 1, exponent)
  | false, false => none

/-- The fewest digits that read back as a positive double, with the power of ten of the last. -/
def shortest (rank : Nat) : Nat × Int :=
  -- Seventeen digits are enough for every double.
  ((List.range 17).findSome? fun n => digitsOfLength? rank (n + 1)).getD (0, 0)

/-- Drops the zeros that end a digit string, keeping its value. -/
def trimZeros (digits : List Char) (exponent : Int) : List Char × Int :=
  let zeros := (digits.reverse.takeWhile (· = '0')).length
  (digits.take (digits.length - zeros), exponent + zeros)

/-- An exponent, whose sign is always written. -/
def exponentText (power : Int) : List Char :=
  'e' :: (if power < 0 then '-' else '+') :: Nat.toDigits 10 power.natAbs

/--
The layout of digits: positional while the point falls among the first sixteen places or at most
four zeros follow it, and with an exponent outside that range.
-/
def layout (digits : List Char) (exponent : Int) : List Char :=
  let point := digits.length + exponent
  if 0 ≤ exponent ∧ point ≤ 16 then digits ++ List.replicate exponent.toNat '0' ++ ['.', '0']
  else if 0 < point ∧ point ≤ 16 then
    digits.take point.toNat ++ '.' :: digits.drop point.toNat
  else if -5 < point ∧ point ≤ 0 then
    '0' :: '.' :: List.replicate (-point).toNat '0' ++ digits
  else
    match digits with
    | [digit] => digit :: exponentText (point - 1)
    | digit :: more => digit :: '.' :: more ++ exponentText (point - 1)
    | [] => []

def text (d : Double) : String :=
  let body :=
    if d.rank = 0 then ['0', '.', '0']
    else
      let s := shortest d.rank
      let t := trimZeros (Nat.toDigits 10 s.1) s.2
      layout t.1 t.2
  String.ofList (if d.negative then '-' :: body else body)

end Double

end ThreadCache
