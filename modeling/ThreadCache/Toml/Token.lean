import ThreadCache.Text.Digit

/-!
# Tokens of TOML text

Bare runs, strings, marks and line ends. Blanks are tokens too, for two brackets mean something
else when they stand apart.
-/

namespace ThreadCache.Toml

open Text (isDigit hexValue? numberIn)

/-- Whether a character may stand in a comment or a string: no control character but the tab. -/
def isText (c : Char) : Bool := c = '\t' || (0x20 ≤ c.toNat && c.toNat ≠ 0x7f)

def isBlank (c : Char) : Bool := c = ' ' || c = '\t'

/-- Whether a character may stand in a value without quotes or in a chain of keys. -/
def isBare (c : Char) : Bool :=
  c.isAlphanum || c = '_' || c = '-' || c = '+' || c = '.' || c = ':'

inductive Token
  | blank
  | newline
  | comment
  | bare (run : List Char)
  | line (text : String)
  | block (text : String)
  | mark (c : Char)
  deriving DecidableEq, Repr

namespace Token

/-! ## Strings -/

def escaped? : Char → Option Char
  | 'b' => some '\x08'
  | 't' => some '\t'
  | 'n' => some '\n'
  | 'f' => some '\x0c'
  | 'r' => some '\r'
  | '"' => some '"'
  | '\\' => some '\\'
  | _ => none

/-- The character whose number is given in hexadecimal digits. -/
def numbered? (digits : List Char) : Option Char :=
  let n := numberIn 16 digits
  if digits.all (fun c => (hexValue? c).isSome) ∧ n.isValidChar then some (Char.ofNat n) else none

/-- What a reader of a string body returns: its characters and the text after the closing quote. -/
abbrev Body := Option (List Char × List Char)

def Body.cons (c : Option Char) (body : Body) : Body :=
  match c, body with
  | some c, some (cs, rest) => some (c :: cs, rest)
  | _, _ => none

def basicBody : List Char → Body
  | [] => none
  | '"' :: rest => some ([], rest)
  | '\\' :: 'u' :: a :: b :: c :: d :: rest => .cons (numbered? [a, b, c, d]) (basicBody rest)
  | '\\' :: 'U' :: a :: b :: c :: d :: e :: f :: g :: h :: rest =>
    .cons (numbered? [a, b, c, d, e, f, g, h]) (basicBody rest)
  | '\\' :: c :: rest => .cons (escaped? c) (basicBody rest)
  | c :: rest => if isText c then .cons (some c) (basicBody rest) else none

def literalBody : List Char → Body
  | [] => none
  | '\'' :: rest => some ([], rest)
  | c :: rest => if isText c then .cons (some c) (literalBody rest) else none

def endsLine (cs : List Char) : Bool :=
  match cs.dropWhile isBlank with
  | '\n' :: _ => true
  | '\r' :: '\n' :: _ => true
  | _ => false

/--
The body of a string with escapes in triple quotes; up to two quotes may stand before the closing
ones. After a backslash at the end of a line the text is `joined`: blanks and line ends are passed
over up to the next character.
-/
def basicBlock (joined : Bool) : List Char → Body
  | [] => none
  | '"' :: '"' :: '"' :: '"' :: '"' :: rest => some (['"', '"'], rest)
  | '"' :: '"' :: '"' :: '"' :: rest => some (['"'], rest)
  | '"' :: '"' :: '"' :: rest => some ([], rest)
  | '\\' :: rest =>
    if endsLine rest then basicBlock true rest
    else
      match rest with
      | 'u' :: a :: b :: c :: d :: rest => .cons (numbered? [a, b, c, d]) (basicBlock false rest)
      | 'U' :: a :: b :: c :: d :: e :: f :: g :: h :: rest =>
        .cons (numbered? [a, b, c, d, e, f, g, h]) (basicBlock false rest)
      | c :: rest => .cons (escaped? c) (basicBlock false rest)
      | [] => none
  | '\r' :: '\n' :: rest =>
    if joined then basicBlock true rest else .cons (some '\n') (basicBlock false rest)
  | c :: rest =>
    if joined && (isBlank c || c = '\n') then basicBlock true rest
    else if isText c || c = '\n' then .cons (some c) (basicBlock false rest)
    else none

def literalBlock : List Char → Body
  | [] => none
  | '\'' :: '\'' :: '\'' :: '\'' :: '\'' :: rest => some (['\'', '\''], rest)
  | '\'' :: '\'' :: '\'' :: '\'' :: rest => some (['\''], rest)
  | '\'' :: '\'' :: '\'' :: rest => some ([], rest)
  | '\r' :: '\n' :: rest => .cons (some '\n') (literalBlock rest)
  | c :: rest => if isText c || c = '\n' then .cons (some c) (literalBlock rest) else none

def dropNewline : List Char → List Char
  | '\n' :: rest => rest
  | '\r' :: '\n' :: rest => rest
  | cs => cs

theorem length_dropNewline_le (cs : List Char) : (dropNewline cs).length ≤ cs.length := by
  fun_cases dropNewline cs with
  | case1 rest => simp
  | case2 rest => simp; omega
  | case3 => exact Nat.le_refl _

/-- A body with a character in front leaves the same text. -/
theorem Body.cons_eq_some {c : Option Char} {body : Body} {cs rest : List Char}
    (h : Body.cons c body = some (cs, rest)) : ∃ cs', body = some (cs', rest) := by
  unfold Body.cons at h
  split at h <;> simp_all

theorem basicBody_length {cs text rest : List Char} (h : basicBody cs = some (text, rest)) :
    rest.length < cs.length := by
  fun_induction basicBody cs generalizing text
  case case4 ih =>
    obtain ⟨_, hb⟩ := Body.cons_eq_some h
    have := ih hb
    simp only [List.length_cons]; omega
  all_goals grind [Body.cons_eq_some]

theorem literalBody_length {cs text rest : List Char} (h : literalBody cs = some (text, rest)) :
    rest.length < cs.length := by
  fun_induction literalBody cs generalizing text <;> grind [Body.cons_eq_some]

theorem basicBlock_length {joined : Bool} {cs text rest : List Char}
    (h : basicBlock joined cs = some (text, rest)) : rest.length < cs.length := by
  fun_induction basicBlock joined cs generalizing text
  case case7 ih =>
    obtain ⟨_, hb⟩ := Body.cons_eq_some h
    have := ih hb
    simp only [List.length_cons]; omega
  all_goals grind [Body.cons_eq_some]

theorem literalBlock_length {cs text rest : List Char} (h : literalBlock cs = some (text, rest)) :
    rest.length < cs.length := by
  fun_induction literalBlock cs generalizing text <;> grind [Body.cons_eq_some]

/-! ## Scanning -/

def isMark (c : Char) : Bool :=
  c = '[' || c = ']' || c = '\x7b' || c = '\x7d' || c = ',' || c = '='

/-- Whether a run is as long as a date and looks like one. -/
def isDay (run : List Char) : Bool :=
  match run with
  | [y1, y2, y3, y4, '-', m1, m2, '-', d1, d2] =>
    [y1, y2, y3, y4, m1, m2, d1, d2].all isDigit
  | _ => false

/-- The run at the start of a text and what follows it; a date may go on after a blank. -/
def takeRun (cs : List Char) : List Char × List Char :=
  let run := cs.takeWhile isBare
  -- A date and a time may have a blank between them, if a digit follows it.
  match isDay run, cs.dropWhile isBare with
  | true, ' ' :: c :: rest =>
    if isDigit c then (run ++ ' ' :: (c :: rest).takeWhile isBare, (c :: rest).dropWhile isBare)
    else (run, ' ' :: c :: rest)
  | _, rest => (run, rest)

theorem length_dropWhile_le (p : Char → Bool) (cs : List Char) :
    (cs.dropWhile p).length ≤ cs.length := (List.dropWhile_sublist p).length_le

theorem takeRun_length {c : Char} {cs : List Char} (h : isBare c = true) :
    (takeRun (c :: cs)).2.length < (c :: cs).length := by
  -- The run holds at least the first character.
  have h1 : ((c :: cs).dropWhile isBare).length ≤ cs.length := by
    simp only [List.dropWhile_cons, h, if_true]
    exact length_dropWhile_le isBare cs
  have h2 := fun ds : List Char => length_dropWhile_le isBare ds
  unfold takeRun
  grind

set_option linter.unusedVariables false in
/-- The tokens of a text; none if there is a place where no token begins. -/
def scan : List Char → Option (List Token)
  | [] => some []
  | '\n' :: rest => (scan rest).map (.newline :: ·)
  | '\r' :: '\n' :: rest => (scan rest).map (.newline :: ·)
  | '#' :: rest => (scan (rest.dropWhile isText)).map (.comment :: ·)
  | '"' :: '"' :: '"' :: rest =>
    match h : basicBlock false (dropNewline rest) with
    | some (text, after) => (scan after).map (.block (String.ofList text) :: ·)
    | none => none
  | '\'' :: '\'' :: '\'' :: rest =>
    match h : literalBlock (dropNewline rest) with
    | some (text, after) => (scan after).map (.block (String.ofList text) :: ·)
    | none => none
  | '"' :: rest =>
    match h : basicBody rest with
    | some (text, after) => (scan after).map (.line (String.ofList text) :: ·)
    | none => none
  | '\'' :: rest =>
    match h : literalBody rest with
    | some (text, after) => (scan after).map (.line (String.ofList text) :: ·)
    | none => none
  | c :: rest =>
    if isBlank c then (scan (rest.dropWhile isBlank)).map (.blank :: ·)
    else if isMark c then (scan rest).map (.mark c :: ·)
    else if h : isBare c then
      (scan (takeRun (c :: rest)).2).map (.bare (takeRun (c :: rest)).1 :: ·)
    else none
termination_by cs => cs.length
decreasing_by
  case _ => simp only [List.length_cons]; omega
  case _ => simp only [List.length_cons]; omega
  case _ => have := length_dropWhile_le isText rest; simp only [List.length_cons]; omega
  case _ =>
    have := basicBlock_length h
    have := length_dropNewline_le rest
    simp only [List.length_cons]; omega
  case _ =>
    have := literalBlock_length h
    have := length_dropNewline_le rest
    simp only [List.length_cons]; omega
  case _ => have := basicBody_length h; simp only [List.length_cons]; omega
  case _ => have := literalBody_length h; simp only [List.length_cons]; omega
  case _ => have := length_dropWhile_le isBlank rest; simp only [List.length_cons]; omega
  case _ => simp only [List.length_cons]; omega
  case _ => exact takeRun_length h

end Token

end ThreadCache.Toml
