import ThreadCache.Toml.Scalar
import ThreadCache.Toml.Token

/-!
# TOML documents

A document is read token by token. What has been opened and not yet closed is a stack of frames,
and the tables grow with every key that gets its value.
-/

namespace ThreadCache.Toml

/-! ## Keys -/

/-- A dotted key in the middle of being read. It is `whole` if no part has to follow. -/
structure Chain where
  parts : List String
  whole : Bool

namespace Chain

def start : Chain := ⟨[], false⟩

def part? (k : Chain) (s : String) : Option Chain :=
  if k.whole then none else some ⟨k.parts ++ [s], true⟩

def dot? (k : Chain) : Option Chain := if k.whole then some ⟨k.parts, false⟩ else none

def isKeyChar (c : Char) : Bool := c.isAlphanum || c = '_' || c = '-'

/-- The chain with a dot or with a part without quotes. -/
def piece? (k : Chain) (run : List Char) : Option Chain :=
  if run = ['.'] then k.dot?
  else if run.all isKeyChar then k.part? (String.ofList run)
  else none

/-- The chain with a bare run, in which parts and dots take turns. -/
def run? (k : Chain) (run : List Char) : Option Chain :=
  -- Dots stand by themselves, and the characters between them together.
  (run.splitBy fun a b => a ≠ '.' && b ≠ '.').foldlM piece? k

/-- The bound of the number of parts, and of the nesting of values. -/
def limit : Nat := 80

def key? (k : Chain) : Option (List String) :=
  if k.whole && k.parts.length < limit then some k.parts else none

end Chain

/-! ## Reading -/

/-- What has been opened: a key that waits for its value, an array, or a table between braces. -/
inductive Frame
  | entry (key : List String)
  | array (items : List Item)
  | braces (entries : Entries)

def Frame.isContainer : Frame → Bool
  | .entry _ => false
  | _ => true

inductive Expect
  | line
  /-- The rest of a header after its first bracket. -/
  | bracket
  | header (double : Bool) (chain : Chain)
  /-- The last bracket of a double header. -/
  | closing (key : List String)
  | key (frames : List Frame) (chain : Chain)
  | firstKey (frames : List Frame)
  | value (frames : List Frame)
  | item (frames : List Frame)
  | next (frames : List Frame)
  | lineEnd

/-- The tables so far, and the header whose table takes the next key. -/
structure Draft where
  entries : Entries
  header : List String

namespace Draft

def assign (d : Draft) (key : List String) (item : Item) : Option Draft :=
  (Entries.within d.header (Entries.assign key item) d.entries).map fun entries =>
    { d with entries := entries }

def enter (d : Draft) (path : List String) (double : Bool) : Option Draft :=
  (Entries.enter path double d.entries).map fun entries => ⟨entries, path⟩

end Draft

abbrev Progress := Option (Draft × Expect)

def deliver (d : Draft) (item : Item) : List Frame → Progress
  | [.entry key] => (d.assign key item).map fun d => (d, .lineEnd)
  | .entry key :: .braces entries :: frames =>
    (Entries.assign key item entries).map fun entries => (d, .next (.braces entries :: frames))
  | .array items :: frames => some (d, .next (.array (items ++ [item]) :: frames))
  | _ => none

/-- Opens a container unless there are too many already. -/
def openFrame (frames : List Frame) (frame : Frame) : Option (List Frame) :=
  if frames.countP Frame.isContainer + 1 < Chain.limit then some (frame :: frames) else none

def startValue (d : Draft) (frames : List Frame) : Token → Progress
  | .bare run => (bare? run).bind fun item => deliver d item frames
  | .line text => deliver d (.string text) frames
  | .block text => deliver d (.string text) frames
  | .mark '[' => (openFrame frames (.array [])).map fun frames => (d, .item frames)
  | .mark '\x7b' => (openFrame frames (.braces [])).map fun frames => (d, .firstKey frames)
  | _ => none

def stepKey (d : Draft) (frames : List Frame) (chain : Chain) : Token → Progress
  | .blank => some (d, .key frames chain)
  | .bare run => (chain.run? run).map fun chain => (d, .key frames chain)
  | .line text => (chain.part? text).map fun chain => (d, .key frames chain)
  | .mark '=' => chain.key?.map fun key => (d, .value (.entry key :: frames))
  | _ => none

def stepHeader (d : Draft) (double : Bool) (chain : Chain) : Token → Progress
  | .blank => some (d, .header double chain)
  | .bare run => (chain.run? run).map fun chain => (d, .header double chain)
  | .line text => (chain.part? text).map fun chain => (d, .header double chain)
  | .mark ']' => chain.key?.bind fun key =>
    if double then some (d, .closing key) else (d.enter key false).map fun d => (d, .lineEnd)
  | _ => none

/-- After a value in something open. Lines may end in an array, but not between braces. -/
def stepNext (d : Draft) : List Frame → Token → Progress
  | frames, .blank => some (d, .next frames)
  | .array items :: frames, .newline => some (d, .next (.array items :: frames))
  | .array items :: frames, .comment => some (d, .next (.array items :: frames))
  | .array items :: frames, .mark ',' => some (d, .item (.array items :: frames))
  | .array items :: frames, .mark ']' => deliver d (.array items) frames
  | .braces entries :: frames, .mark ',' => some (d, .key (.braces entries :: frames) .start)
  | .braces entries :: frames, .mark '\x7d' => deliver d (.table .braces entries) frames
  | _, _ => none

def step (d : Draft) : Expect → Token → Progress
  | .line, .mark '[' => some (d, .bracket)
  | .line, .blank => some (d, .line)
  | .line, .newline => some (d, .line)
  | .line, .comment => some (d, .line)
  -- Whatever else starts a line is a key of the table in force.
  | .line, token => stepKey d [] .start token
  | .bracket, .mark '[' => some (d, .header true .start)
  | .bracket, token => stepHeader d false .start token
  | .header double chain, token => stepHeader d double chain token
  | .closing key, .mark ']' => (d.enter key true).map fun d => (d, .lineEnd)
  | .closing _, _ => none
  | .key frames chain, token => stepKey d frames chain token
  | .firstKey frames, .blank => some (d, .firstKey frames)
  -- Braces may close at once, but not after a comma.
  | .firstKey (.braces entries :: frames), .mark '\x7d' =>
    deliver d (.table .braces entries) frames
  | .firstKey frames, token => stepKey d frames .start token
  | .value frames, .blank => some (d, .value frames)
  | .value frames, token => startValue d frames token
  | .item frames, .blank => some (d, .item frames)
  | .item frames, .newline => some (d, .item frames)
  | .item frames, .comment => some (d, .item frames)
  | .item (.array items :: frames), .mark ']' => deliver d (.array items) frames
  | .item frames, token => startValue d frames token
  | .next frames, token => stepNext d frames token
  | .lineEnd, .blank => some (d, .lineEnd)
  | .lineEnd, .comment => some (d, .lineEnd)
  | .lineEnd, .newline => some (d, .line)
  | .lineEnd, _ => none

/-- Takes all tokens; a document may only end where a line may. -/
def run (d : Draft) : Expect → List Token → Option Entries
  | .line, [] => some d.entries
  | .lineEnd, [] => some d.entries
  | _, [] => none
  | expect, token :: tokens => do
    let (d, expect) ← step d expect token
    run d expect tokens

/-- Text without a byte order mark at its start. -/
def withoutMark : List Char → List Char
  | '\ufeff' :: cs => cs
  | cs => cs

def ofText? (text : String) : Option Entries :=
  (Token.scan (withoutMark text.toList)).bind (run ⟨[], []⟩ .line)

end ThreadCache.Toml
