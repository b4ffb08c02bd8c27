import ThreadCache.Json.Basic
import ThreadCache.Json.Token

/-!
# JSON documents

A document is JSON text as it was read: the entries of an object in the order of the text, names
repeated where the text repeats them. Text that stops being JSON still gives a document, with a
`broken` leaf at the place where reading stopped, so that a reader that goes through the document
in text order meets the fault exactly when it gets there.
-/

namespace ThreadCache

/-- JSON text as read. An entry whose name is a garbled string has no name. -/
inductive Document
  | null
  | bool (value : Bool)
  | int (value : Int)
  | double (value : Double)
  | string (value : String)
  | array (items : List Document)
  | object (entries : List (Option String × Document))
  | garbled
  | broken
  deriving Repr, Inhabited

namespace Document

/-! ## Reading -/

/-- A container whose end has not been read, its parts in reverse order. -/
inductive Frame
  | array (done : List Document)
  | object (done : List (Option String × Document))
  | entry (done : List (Option String × Document)) (name : Option String)

inductive Expect
  | value
  | itemOrEnd
  | nameOrEnd
  | name
  | colon
  | commaOrEnd

inductive Progress
  | more (frames : List Frame) (expect : Expect)
  | done (document : Document)
  | stuck

/-- Puts a finished value into the innermost open container. -/
def deliver (value : Document) : List Frame → Progress
  | [] => .done value
  | .array done :: frames => .more (.array (value :: done) :: frames) .commaOrEnd
  | .entry done name :: frames => .more (.object ((name, value) :: done) :: frames) .commaOrEnd
  | .object _ :: _ => .stuck

def ofScalar? : Token → Option Document
  | .null => some .null
  | .bool b => some (.bool b)
  | .int n => some (.int n)
  | .double d => some (.double d)
  | .string s => some (.string s)
  | .garbledString => some .garbled
  | .garbledNumber => some .garbled
  | _ => none

def startValue (frames : List Frame) : Token → Progress
  | .openArray => .more (.array [] :: frames) .itemOrEnd
  | .openObject => .more (.object [] :: frames) .nameOrEnd
  | token =>
    match ofScalar? token with
    | some value => deliver value frames
    | none => .stuck

def startEntry : List Frame → Token → Progress
  | .object done :: frames, .string name => .more (.entry done (some name) :: frames) .colon
  | .object done :: frames, .garbledString => .more (.entry done none :: frames) .colon
  | _, _ => .stuck

def step (frames : List Frame) : Expect → Token → Progress
  | .value, token => startValue frames token
  | .itemOrEnd, .closeArray =>
    match frames with
    | .array done :: outer => deliver (.array done.reverse) outer
    | _ => .stuck
  | .itemOrEnd, token => startValue frames token
  | .nameOrEnd, .closeObject =>
    match frames with
    | .object done :: outer => deliver (.object done.reverse) outer
    | _ => .stuck
  | .nameOrEnd, token => startEntry frames token
  | .name, token => startEntry frames token
  | .colon, .colon => .more frames .value
  | .colon, _ => .stuck
  | .commaOrEnd, .comma =>
    match frames with
    | .array _ :: _ => .more frames .value
    | .object _ :: _ => .more frames .name
    | _ => .stuck
  | .commaOrEnd, .closeArray =>
    match frames with
    | .array done :: outer => deliver (.array done.reverse) outer
    | _ => .stuck
  | .commaOrEnd, .closeObject =>
    match frames with
    | .object done :: outer => deliver (.object done.reverse) outer
    | _ => .stuck
  | .commaOrEnd, _ => .stuck

/-- Closes the open containers around a document. -/
def close (document : Document) : List Frame → Document
  | [] => document
  | .array done :: frames => close (.array (done.reverse ++ [document])) frames
  | .object done :: frames => close (.object (done.reverse ++ [(none, document)])) frames
  | .entry done name :: frames => close (.object (done.reverse ++ [(name, document)])) frames

/-- What reading a text gives: the document, and whether the text ends with it. -/
structure Reading where
  document : Document
  whole : Bool

def ofTokens (frames : List Frame) (expect : Expect) : List Token → Reading
  | [] => ⟨close .broken frames, false⟩
  | token :: rest =>
    match step frames expect token with
    | .more frames expect => ofTokens frames expect rest
    | .done document => ⟨document, rest.isEmpty⟩
    | .stuck => ⟨close .broken frames, false⟩

def ofText (text : String) : Reading := ofTokens [] .value (Token.scan text.toList)

/-! ## Soundness of a document -/

mutual

/-- The text was read to the end of the document. -/
def intact : Document → Bool
  | .broken => false
  | .array items => intactItems items
  | .object entries => intactEntries entries
  | _ => true

def intactItems : List Document → Bool
  | [] => true
  | item :: rest => item.intact && intactItems rest

def intactEntries : List (Option String × Document) → Bool
  | [] => true
  | (_, value) :: rest => value.intact && intactEntries rest

end

mutual

/-- Every part of the document denotes a value. -/
def sound : Document → Bool
  | .broken => false
  | .garbled => false
  | .array items => soundItems items
  | .object entries => soundEntries entries
  | _ => true

def soundItems : List Document → Bool
  | [] => true
  | item :: rest => item.sound && soundItems rest

def soundEntries : List (Option String × Document) → Bool
  | [] => true
  | (name, value) :: rest => name.isSome && value.sound && soundEntries rest

end

mutual

def depth : Document → Nat
  | .array items => depthItems items + 1
  | .object entries => depthEntries entries + 1
  | _ => 0

def depthItems : List Document → Nat
  | [] => 0
  | item :: rest => max item.depth (depthItems rest)

def depthEntries : List (Option String × Document) → Nat
  | [] => 0
  | (_, value) :: rest => max value.depth (depthEntries rest)

end

/-! ## Values -/

mutual

/-- The value that a document denotes: of the entries with one name the last counts. -/
def value : Document → Json
  | .null => .null
  | .bool b => .bool b
  | .int n => .int n
  | .double d => .double d
  | .string s => .string s
  | .array items => .array (valueItems items)
  | .object entries => .ofEntries (valueEntries entries)
  | .garbled => .null
  | .broken => .null

def valueItems : List Document → List Json
  | [] => []
  | item :: rest => item.value :: valueItems rest

def valueEntries : List (Option String × Document) → List (String × Json)
  | [] => []
  | (name, d) :: rest => (name.getD "", d.value) :: valueEntries rest

end

def value? (d : Document) : Option Json := if d.sound then some d.value else none

mutual

def ofJson : Json → Document
  | .null => .null
  | .bool b => .bool b
  | .int n => .int n
  | .double d => .double d
  | .string s => .string s
  | .array items => .array (ofJsonItems items)
  | .object entries => .object (ofJsonEntries entries)

def ofJsonItems : List Json → List Document
  | [] => []
  | item :: rest => ofJson item :: ofJsonItems rest

def ofJsonEntries : List (String × Json) → List (Option String × Document)
  | [] => []
  | (name, value) :: rest => (some name, ofJson value) :: ofJsonEntries rest

end

/-! ## Text -/

def hexDigit (n : Nat) : Char := if n < 10 then Char.ofNat (48 + n) else Char.ofNat (87 + n)

/-- A character inside a string: only quotes, backslashes and control characters are escaped. -/
def escape (c : Char) : List Char :=
  match c with
  | '"' => ['\\', '"']
  | '\\' => ['\\', '\\']
  | '\x08' => ['\\', 'b']
  | '\x0c' => ['\\', 'f']
  | '\n' => ['\\', 'n']
  | '\r' => ['\\', 'r']
  | '\t' => ['\\', 't']
  | c =>
    if c.toNat < 0x20 then
      ['\\', 'u', '0', '0', hexDigit (c.toNat / 16), hexDigit (c.toNat % 16)]
    else [c]

def quote (s : String) : List Char := '"' :: s.toList.flatMap escape ++ ['"']

mutual

def chars : Document → List Char
  | .null => ['n', 'u', 'l', 'l']
  | .bool true => ['t', 'r', 'u', 'e']
  | .bool false => ['f', 'a', 'l', 's', 'e']
  | .int n => (toString n).toList
  | .double d => d.text.toList
  | .string s => quote s
  | .array [] => ['[', ']']
  | .array (item :: rest) => '[' :: item.chars ++ charsItems rest
  | .object [] => ['\x7b', '\x7d']
  | .object ((name, value) :: rest) =>
    '\x7b' :: quote (name.getD "") ++ ':' :: value.chars ++ charsEntries rest
  | .garbled => []
  | .broken => []

def charsItems : List Document → List Char
  | [] => [']']
  | item :: rest => ',' :: item.chars ++ charsItems rest

def charsEntries : List (Option String × Document) → List Char
  | [] => ['\x7d']
  | (name, value) :: rest => ',' :: quote (name.getD "") ++ ':' :: value.chars ++ charsEntries rest

end

def text (d : Document) : String := String.ofList d.chars

end Document

namespace Json

/-- How deep the containers of a value may be nested in its text. -/
def nestingLimit : Nat := 127

/-- The value that a text denotes, if it is JSON and not nested too deep. -/
def ofText? (text : String) : Option Json :=
  let reading := Document.ofText text
  if reading.whole && decide (reading.document.depth ≤ nestingLimit) then reading.document.value?
  else none

/-- The compact text of a value, the names of every object in order. -/
def text (v : Json) : String := (Document.ofJson v).text

end Json

end ThreadCache
