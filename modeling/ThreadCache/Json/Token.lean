import ThreadCache.Json.Double
import ThreadCache.Text.Digit

/-!
# Tokens of JSON text

Text is cut into tokens from the left. The first place that no token fits becomes a `bad` token and
ends the list. A string with an unpaired surrogate and a number beyond the doubles are well formed
but denote nothing: they become `garbled` tokens, and the text goes on.
-/

namespace ThreadCache

inductive Token
  | openArray
  | closeArray
  | openObject
  | closeObject
  | comma
  | colon
  | null
  | bool (value : Bool)
  | int (value : Int)
  | double (value : Double)
  | string (value : String)
  | garbledString
  | garbledNumber
  | bad
  deriving DecidableEq, Repr

namespace Token

open Text (isDigit digitValue hexValue? numberIn)

/-- The four characters that may stand between tokens. -/
def isBlank (c : Char) : Bool := c == ' ' || c == '\n' || c == '\t' || c == '\r'

/-! ## Strings -/

/-- A piece of a string body: a character, or the number of a four digit escape. -/
inductive Piece
  | char (c : Char)
  | escape (unit : Nat)
  deriving DecidableEq, Repr

def hexUnit? (a b c d : Char) : Option Nat := do
  return 4096 * (← hexValue? a) + 256 * (← hexValue? b) + 16 * (← hexValue? c) + (← hexValue? d)

def escaped? : Char → Option Char
  | '"' => some '"'
  | '\\' => some '\\'
  | '/' => some '/'
  | 'b' => some '\x08'
  | 'f' => some '\x0c'
  | 'n' => some '\n'
  | 'r' => some '\r'
  | 't' => some '\t'
  | _ => none

/-- Reads a string body up to its closing quote, and returns the text after the quote. -/
def stringBody : List Char → Option (List Piece × List Char)
  | [] => none
  | '"' :: rest => some ([], rest)
  | '\\' :: 'u' :: a :: b :: c :: d :: rest =>
    match hexUnit? a b c d, stringBody rest with
    | some unit, some (pieces, after) => some (.escape unit :: pieces, after)
    | _, _ => none
  | '\\' :: e :: rest =>
    match escaped? e, stringBody rest with
    | some c, some (pieces, after) => some (.char c :: pieces, after)
    | _, _ => none
  | c :: rest =>
    if c.toNat < 0x20 then none
    else
      match stringBody rest with
      | some (pieces, after) => some (.char c :: pieces, after)
      | none => none

theorem stringBody_length {cs after : List Char} {pieces : List Piece}
    (h : stringBody cs = some (pieces, after)) : after.length < cs.length := by
  fun_induction stringBody cs generalizing pieces after <;>
    simp only [Option.some.injEq, Prod.mk.injEq, reduceCtorEq] at h <;>
    simp only [List.length_cons]
  case case2 => rw [h.2]; omega
  case case3 hrec _ ih => have := ih hrec; rw [← h.2]; omega
  case case5 hrec _ ih => have := ih hrec; rw [← h.2]; omega
  case case8 hrec ih => have := ih hrec; rw [← h.2]; omega

/--
The characters of a string body. A leading surrogate joins with the trailing surrogate right after
it; any other surrogate leaves the string without a value.
-/
def characters? : List Piece → Option (List Char)
  | [] => some []
  | .char c :: rest => (characters? rest).map (c :: ·)
  | .escape high :: .escape low :: rest =>
    if 0xD800 ≤ high ∧ high ≤ 0xDBFF then
      if 0xDC00 ≤ low ∧ low ≤ 0xDFFF then
        (characters? rest).map
          (Char.ofNat (0x10000 + (high - 0xD800) * 0x400 + (low - 0xDC00)) :: ·)
      else none
    -- A trailing surrogate cannot come first.
    else if 0xDC00 ≤ high ∧ high ≤ 0xDFFF then none
    else (characters? (.escape low :: rest)).map (Char.ofNat high :: ·)
  | .escape unit :: rest =>
    if 0xD800 ≤ unit ∧ unit ≤ 0xDFFF then none
    else (characters? rest).map (Char.ofNat unit :: ·)

def ofPieces (pieces : List Piece) : Token :=
  match characters? pieces with
  | some cs => .string (String.ofList cs)
  | none => .garbledString

/-! ## Numbers -/

structure Numeral where
  negative : Bool
  whole : List Char
  fraction : Option (List Char)
  exponent : Option (Bool × List Char)
  deriving DecidableEq, Repr

def takeDigits (cs : List Char) : List Char × List Char :=
  (cs.takeWhile isDigit, cs.dropWhile isDigit)

theorem takeDigits_length (cs : List Char) : (takeDigits cs).2.length ≤ cs.length :=
  (List.dropWhile_sublist _).length_le

/-- The digits after a decimal point; none if a point stands without digits. -/
def readFraction : List Char → Option (Option (List Char) × List Char)
  | '.' :: cs =>
    match takeDigits cs with
    | ([], _) => none
    | (digits, rest) => some (some digits, rest)
  | cs => some (none, cs)

/-- The sign at the front of the text, true for a minus. -/
def readSign : List Char → Bool × List Char
  | '-' :: cs => (true, cs)
  | '+' :: cs => (false, cs)
  | cs => (false, cs)

/-- The exponent after the letter `e`; none if the letter stands without digits. -/
def readExponent : List Char → Option (Option (Bool × List Char) × List Char)
  | [] => some (none, [])
  | c :: cs =>
    if c = 'e' ∨ c = 'E' then
      let (negative, unsigned) := readSign cs
      match takeDigits unsigned with
      | ([], _) => none
      | (digits, rest) => some (some (negative, digits), rest)
    else some (none, c :: cs)

/-- The whole part of a number: a single zero, or digits that start with another one. -/
def readWhole (cs : List Char) : Option (List Char × List Char) :=
  match takeDigits cs with
  | ([], _) => none
  | ('0' :: _ :: _, _) => none
  | (digits, rest) => some (digits, rest)

def readNumeral (negative : Bool) (cs : List Char) : Option (Numeral × List Char) :=
  match readWhole cs with
  | none => none
  | some (whole, afterWhole) =>
    match readFraction afterWhole with
    | none => none
    | some (fraction, afterFraction) =>
      match readExponent afterFraction with
      | none => none
      | some (exponent, rest) => some (⟨negative, whole, fraction, exponent⟩, rest)

theorem readWhole_length {cs rest digits : List Char} (h : readWhole cs = some (digits, rest)) :
    rest.length < cs.length := by
  -- The digits and the text behind them make up the text, and there is at least one digit.
  have hsplit : (cs.takeWhile isDigit ++ cs.dropWhile isDigit).length = cs.length := by
    rw [List.takeWhile_append_dropWhile]
  have hpos : (takeDigits cs).1 ≠ [] ∧ rest = (takeDigits cs).2 := by
    unfold readWhole at h; grind
  have := List.length_pos_iff.2 hpos.1
  rw [hpos.2]
  simp only [takeDigits, List.length_append] at *
  omega

theorem readFraction_length {cs rest : List Char} {f : Option (List Char)}
    (h : readFraction cs = some (f, rest)) : rest.length ≤ cs.length := by
  unfold readFraction at h
  split at h
  · rename_i cs'
    have := takeDigits_length cs'
    grind
  · grind

theorem readSign_length (cs : List Char) : (readSign cs).2.length ≤ cs.length := by
  unfold readSign; split <;> simp

theorem readExponent_length {cs rest : List Char} {e : Option (Bool × List Char)}
    (h : readExponent cs = some (e, rest)) : rest.length ≤ cs.length := by
  unfold readExponent at h
  split at h
  · simp_all
  · rename_i c cs'
    have h1 := readSign_length cs'
    have h2 := takeDigits_length (readSign cs').2
    grind

theorem readNumeral_length {negative : Bool} {cs rest : List Char} {n : Numeral}
    (h : readNumeral negative cs = some (n, rest)) : rest.length < cs.length := by
  unfold readNumeral at h
  split at h
  · simp at h
  · rename_i whole afterWhole hw
    split at h
    · simp at h
    · rename_i fraction afterFraction hf
      split at h
      · simp at h
      · rename_i exponent after he
        have := readWhole_length hw
        have := readFraction_length hf
        have := readExponent_length he
        grind

def significandLimit : Nat := 0xffffffffffffffff

/--
Appends decimal digits to a significand while it stays within the limit, and returns the digits
that are left over.
-/
def appendDigits (significand : Nat) : List Char → Nat × List Char
  | [] => (significand, [])
  | c :: rest =>
    let next := significand * 10 + digitValue c
    if next ≤ significandLimit then appendDigits next rest else (significand, c :: rest)

namespace Numeral

def exponentValue : Option (Bool × List Char) → Int
  | none => 0
  | some (negative, digits) => if negative then -(numberIn 10 digits : Int) else numberIn 10 digits

/--
The double of a number. Digits beyond the significand's limit only scale it: one in the whole part
by ten, and one in the fraction not at all.
-/
def double? (n : Numeral) : Option Double :=
  let whole := appendDigits 0 n.whole
  let digits := n.fraction.getD []
  let all := appendDigits whole.1 digits
  -- Whole digits left over scale up; fraction digits that were taken scale down.
  let scale : Int := whole.2.length - (digits.length - all.2.length : Nat)
  Double.ofDecimal n.negative all.1 (scale + exponentValue n.exponent)

/--
The token of a number: a whole number if it is written as one and fits 64 bits, signed when
negative, and a double otherwise. Minus zero is a double.
-/
def token (n : Numeral) : Token :=
  let whole := appendDigits 0 n.whole
  let plain := n.fraction.isNone && n.exponent.isNone && whole.2.isEmpty
  -- Up to 64 bits without a sign, and down to the least signed number of 64 bits with one.
  if plain && !n.negative then .int whole.1
  else if plain && 0 < whole.1 && whole.1 ≤ 0x8000000000000000 then .int (-(whole.1 : Int))
  else
    match n.double? with
    | some d => .double d
    | none => .garbledNumber

end Numeral

/-! ## Scanning -/

def punctuation? : Char → Option Token
  | '[' => some .openArray
  | ']' => some .closeArray
  | '{' => some .openObject
  | '}' => some .closeObject
  | ',' => some .comma
  | ':' => some .colon
  | _ => none

set_option linter.unusedVariables false in
def scan : List Char → List Token
  | [] => []
  | 'n' :: 'u' :: 'l' :: 'l' :: rest => .null :: scan rest
  | 't' :: 'r' :: 'u' :: 'e' :: rest => .bool true :: scan rest
  | 'f' :: 'a' :: 'l' :: 's' :: 'e' :: rest => .bool false :: scan rest
  | '"' :: rest =>
    match h : stringBody rest with
    | some (pieces, after) => ofPieces pieces :: scan after
    | none => [.bad]
  | '-' :: rest =>
    match h : readNumeral true rest with
    | some (n, after) => n.token :: scan after
    | none => [.bad]
  | c :: rest =>
    if isBlank c then scan rest
    else
      match punctuation? c with
      | some token => token :: scan rest
      | none =>
        if isDigit c then
          match h : readNumeral false (c :: rest) with
          | some (n, after) => n.token :: scan after
          | none => [.bad]
        else [.bad]
termination_by cs => cs.length
decreasing_by
  case _ => simp only [List.length_cons]; omega
  case _ => simp only [List.length_cons]; omega
  case _ => simp only [List.length_cons]; omega
  case _ => have := stringBody_length h; simp only [List.length_cons]; omega
  case _ => have := readNumeral_length h; simp only [List.length_cons]; omega
  case _ => simp only [List.length_cons]; omega
  case _ => simp only [List.length_cons]; omega
  case _ => exact readNumeral_length h

end Token

end ThreadCache
