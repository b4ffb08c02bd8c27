import ThreadCache.Text.Digit
import ThreadCache.Toml.Item

/-!
# Bare values

Truth values, whole numbers, numbers with a fraction, dates and times, as they stand without
quotes. Each is told by the whole of its text.
-/

namespace ThreadCache.Toml

open Text (isDigit isDigitIn numberIn)

/-- The digits of a numeral, where single underscores may stand between digits. -/
def digits? (p : Char → Bool) : List Char → Option (List Char)
  | [] => none
  | [c] => if p c then some [c] else none
  | c :: '_' :: cs => if p c then (digits? p cs).map (c :: ·) else none
  | c :: cs => if p c then (digits? p cs).map (c :: ·) else none

/-- A number without its sign, and whether the sign is a minus. -/
def unsigned : List Char → Bool × List Char
  | '-' :: cs => (true, cs)
  | '+' :: cs => (false, cs)
  | cs => (false, cs)

/-- The digits of a whole decimal number, which has no zero in front. -/
def whole? (cs : List Char) : Option (List Char) :=
  match digits? isDigit cs with
  | some ('0' :: _ :: _) => none
  | digits => digits

def fitting? (n : Int) : Option Item :=
  if -0x8000000000000000 ≤ n ∧ n < 0x8000000000000000 then some (.int n) else none

/-- A whole number in a base other than ten; it has no sign. -/
def based? (base : Nat) (cs : List Char) : Option Item :=
  (digits? (isDigitIn base) cs).bind fun digits => fitting? (numberIn base digits)

def integer? : List Char → Option Item
  | '0' :: 'x' :: cs => based? 16 cs
  | '0' :: 'o' :: cs => based? 8 cs
  | '0' :: 'b' :: cs => based? 2 cs
  | cs =>
    let (negative, cs) := unsigned cs
    (whole? cs).bind fun digits =>
      fitting? (if negative then -(numberIn 10 digits : Int) else numberIn 10 digits)

/-! ## Numbers with a fraction -/

/-- The text in front of the first character of a kind, and the text behind it if there is one. -/
def splitFirst (p : Char → Bool) (cs : List Char) : List Char × Option (List Char) :=
  (cs.takeWhile (!p ·), (cs.dropWhile (!p ·)).tail?)

/-- The least number that no finite double is near enough to. -/
def doubleBound : Nat := Nat.pow 2 1024 - Nat.pow 2 970

/-- Whether a decimal number, a significand times a power of ten, is within the doubles. -/
def isFinite (significand : List Char) (exponent : Int) : Bool :=
  let digits := significand.dropWhile (· = '0')
  -- The number of digits decides unless it is that of the greatest double.
  let magnitude := digits.length + exponent
  if digits = [] || magnitude < 309 then true
  else if 309 < magnitude then false
  else numberIn 10 digits * Nat.pow 10 exponent.toNat < doubleBound * Nat.pow 10 (-exponent).toNat

def exponent? : Option (List Char) → Option Int
  | none => some 0
  | some cs =>
    let (negative, cs) := unsigned cs
    (digits? isDigit cs).map fun digits =>
      if negative then -(numberIn 10 digits : Int) else numberIn 10 digits

/-- The digits behind the point; there need not be a point. -/
def fraction? : Option (List Char) → Option (List Char)
  | none => some []
  | some cs => digits? isDigit cs

/-- A number with a fraction or an exponent. Only on the negative side may it leave the doubles. -/
def decimal? (cs : List Char) : Option Item := do
  let (negative, cs) := unsigned cs
  let (mantissa, power) := splitFirst (fun c => c = 'e' || c = 'E') cs
  let (front, back) := splitFirst (· = '.') mantissa
  if power.isNone && back.isNone then none
  let front ← whole? front
  let places ← fraction? back
  let exponent ← exponent? power
  if negative || isFinite (front ++ places) (exponent - places.length) then some .float else none

def special? (cs : List Char) : Option Item :=
  match (unsigned cs).2 with
  | ['i', 'n', 'f'] => some .float
  | ['n', 'a', 'n'] => some .float
  | _ => none

/-! ## Dates and times -/

def twoDigits? (low high : Nat) (a b : Char) : Option Nat :=
  let n := numberIn 10 [a, b]
  if isDigit a && isDigit b && low ≤ n && n ≤ high then some n else none

def isLeap (year : Nat) : Bool := year % 4 = 0 && (year % 100 ≠ 0 || year % 400 = 0)

def daysIn (year month : Nat) : Nat :=
  if month = 2 then (if isLeap year then 29 else 28)
  else if month = 4 || month = 6 || month = 9 || month = 11 then 30
  else 31

/-- Whether the text begins with a calendar date; what follows it. -/
def afterDate? : List Char → Option (List Char)
  | y1 :: y2 :: y3 :: y4 :: '-' :: m1 :: m2 :: '-' :: d1 :: d2 :: rest => do
    if [y1, y2, y3, y4].all isDigit then
      let month ← twoDigits? 1 12 m1 m2
      let _ ← twoDigits? 1 (daysIn (numberIn 10 [y1, y2, y3, y4]) month) d1 d2
      some rest
    else none
  | _ => none

/-- Whether the text is an offset from universal time. -/
def isOffset : List Char → Bool
  | [] => true
  | ['Z'] => true
  | ['z'] => true
  | [sign, h1, h2, ':', m1, m2] =>
    (sign = '+' || sign = '-') && (twoDigits? 0 23 h1 h2).isSome && (twoDigits? 0 59 m1 m2).isSome
  | _ => false

/-- The text behind the fraction of a second, if there is one. -/
def afterFraction? : List Char → Option (List Char)
  | '.' :: c :: cs => if isDigit c then some (cs.dropWhile isDigit) else none
  | '.' :: [] => none
  | cs => some cs

/-- Whether the text begins with a time of day; what follows it. A minute may have a leap second. -/
def afterTime? : List Char → Option (List Char)
  | h1 :: h2 :: ':' :: m1 :: m2 :: ':' :: s1 :: s2 :: rest => do
    let _ ← twoDigits? 0 23 h1 h2
    let _ ← twoDigits? 0 59 m1 m2
    let _ ← twoDigits? 0 60 s1 s2
    afterFraction? rest
  | _ => none

def isDelimiter (c : Char) : Bool := c = 'T' || c = 't' || c = ' '

def isMoment (cs : List Char) : Bool :=
  match afterDate? cs with
  | some [] => true
  | some (c :: rest) =>
    isDelimiter c && (match afterTime? rest with | some offset => isOffset offset | none => false)
  | none => afterTime? cs = some []

/-! ## All bare values -/

def bare? (cs : List Char) : Option Item :=
  if cs = ['t', 'r', 'u', 'e'] then some (.bool true)
  else if cs = ['f', 'a', 'l', 's', 'e'] then some (.bool false)
  -- Dates begin with digits, so they come before numbers.
  else if isMoment cs then some .date
  else integer? cs <|> decimal? cs <|> special? cs

end ThreadCache.Toml
