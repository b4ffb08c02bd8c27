import ThreadCache.Wire.Description
import ThreadCache.Wire.Error

/-!
# Reading

A document is visited from its front, and the first fault met is the answer. Entries come in the
order in which the document lists them; after the last one the missing fields are looked at, in the
order of declaration. Unknown entries are passed over, and a record may also stand as the array of
its fields with those at the end left off that have a default.
-/

namespace ThreadCache.Wire

/-! ## Leaves -/

/-- Where a document comes from, which decides what an array with too many elements is called. -/
inductive Source
  | value
  /-- The inside of a tagged value, which is held back until its tag is known. -/
  | buffered
  /-- Text that is read as it goes along. -/
  | text
  deriving DecidableEq, Repr

def found? : Document → Option Found
  | .null => some .null
  | .bool b => some (.bool b)
  | .int n => some (.int n)
  | .double d => some (.double d)
  | .string s => some (.string s)
  | .array _ => some .sequence
  | .object _ => some .map
  | .garbled => none
  | .broken => none

def mismatch (d : Document) (expected : String) : DecodeError :=
  match found? d with
  | some found => .invalidType found expected
  | none => .malformed

/-- The fault of an array with more elements than there are fields. -/
def overlong (source : Source) (length fields : Nat) : DecodeError :=
  match source with
  | .value => .invalidLength length "fewer elements in array"
  | .buffered => .invalidLength length (counted fields "element" "elements" ++ " in sequence")
  | .text => .malformed

def readString (expected : String) : Document → Except DecodeError String
  | .string s => .ok s
  | d => .error (mismatch d expected)

def readInteger {α : Type} (form : IntegerForm α) : Document → Except DecodeError α
  | .int n =>
    match form.ofInt? n with
    | some x => .ok x
    | none => .error (.invalidValue (.int n) form.name)
  | d => .error (mismatch d form.name)

/-- One of a few names: a string, or an object with null under the name as its only entry. -/
def readName (known : List String) : Document → Except DecodeError String
  | .string s => if s ∈ known then .ok s else .error (.unknownVariant s known)
  -- Constructors without fields may be written so, and then hold nothing but null.
  | .object [(some s, content)] =>
    if s ∈ known then
      match content with
      | .null => .ok s
      | d => .error (mismatch d "unit")
    else .error (.unknownVariant s known)
  | .object _ => .error (.invalidValue .map "map with a single key")
  | d => .error (mismatch d "string or map")

/-- The entry of a name, the first one if there are several. -/
def entry? (name : String) : List (Option String × Document) → Option Document
  | [] => none
  | (key, d) :: rest => if key = some name then some d else entry? name rest

/-! ## Containers -/

def readItems {α : Type} (read : Document → Except DecodeError α) :
    List Document → Except DecodeError (List α)
  | [] => .ok []
  | d :: rest => do
    let x ← read d
    let xs ← readItems read rest
    return x :: xs

/-- The entries of an object, of which the last with a name counts. -/
def readEntries {α : Type} (read : Document → Except DecodeError α) (done : SortedMap α) :
    List (Option String × Document) → Except DecodeError (SortedMap α)
  | [] => .ok done
  -- A name that is no string was garbled when it was read.
  | (none, _) :: _ => .error .malformed
  | (some name, d) :: rest => do
    let x ← read d
    readEntries read (done.insert name x) rest

/-! ## Records -/

/-- Offers the entries of an object to the fields one by one. -/
def visitEntries {σ : Type} (visit : String → Document → σ → Except DecodeError σ) :
    List (Option String × Document) → σ → Except DecodeError σ
  | [], slots => .ok slots
  | (none, _) :: _, _ => .error .malformed
  | (some name, d) :: rest, slots => do
    let slots ← visit name d slots
    visitEntries visit rest slots

/-- Fills the fields that are still missing from their defaults. -/
def Fields.finish : {τ σ : Type} → Fields τ σ → σ → Except DecodeError τ
  | _, _, .nil, _ => .ok ()
  | _, _, .cons name _ default rest, (slot, slots) =>
    match slot <|> default with
    | some x => (rest.finish slots).map fun xs => (x, xs)
    | none => .error (.missingField name)

def assemble {τ σ : Type} (fields : Fields τ σ) (source : Source) (label : String)
    (visit : String → Document → σ → Except DecodeError σ)
    (take : List Document → Except DecodeError (τ × List Document)) :
    Document → Except DecodeError τ
  | .object entries => do
    let slots ← visitEntries visit entries fields.blank
    fields.finish slots
  | .array items => do
    match ← take items with
    | (parts, []) => .ok parts
    | (_, _ :: _) => .error (overlong source items.length fields.length)
  | d => .error (mismatch d label)

/-- The phrase for a record that is given as an array. -/
def withElements {τ σ : Type} (label : String) (fields : Fields τ σ) : String :=
  label ++ " with " ++ counted fields.length "element" "elements"

/-! ## Tagged types -/

/--
A tag: its name, or, inside another tagged value, also its number in the order of declaration. A
number that is too large is no tag's.
-/
def readTag (tags : List String) (source : Source) : Document → Except DecodeError (Option String)
  | .string s => .ok (some s)
  | .int n =>
    if source = .buffered ∧ 0 ≤ n then .ok tags[n.toNat]?
    else .error (mismatch (.int n) "variant identifier")
  | d => .error (mismatch d "variant identifier")

/-- The tag of a tagged value and what is left without it. -/
def splitTag (name : String) (tags : List String) (source : Source) :
    Document → Except DecodeError (Option String × Document)
  | .object entries =>
    match entry? tagKey entries with
    | none => .error (.missingField tagKey)
    | some d => do
      let tag ← readTag tags source d
      return (tag, .object (entries.filter fun entry => entry.1 ≠ some tagKey))
  | .array [] => .error (.missingField tagKey)
  | .array (d :: rest) => do
    let tag ← readTag tags source d
    return (tag, .array rest)
  | d => .error (mismatch d ("internally tagged enum " ++ name))

/-- The constructor that stands for every unknown tag has no fields. -/
def readOther {α : Type} (name : String) (other : α) (body : Document) : Except DecodeError α :=
  (assemble Fields.nil .buffered name (fun _ _ slots => .ok slots) (fun items => .ok ((), items))
    body).map fun _ => other

/-- The content of an adjacently tagged value: where it comes from, and the document if present. -/
structure Content where
  source : Source
  document : Option Document

/-- The tag at the front of an array, where an object cannot stand for the name. -/
def readLeadingTag (known : List String) : Document → Except DecodeError String
  | .string s => if s ∈ known then .ok s else .error (.unknownVariant s known)
  | d => .error (mismatch d "variant identifier")

/--
The tag and the content of an adjacently tagged value. In an object the content comes before the
tag, so it is held back.
-/
def splitContent (name : String) (known : List String) (source : Source) :
    Document → Except DecodeError (String × Content)
  | .object entries =>
    match entry? tagKey entries with
    | none => .error (.missingField tagKey)
    | some d => do
      let tag ← readName known d
      return (tag, ⟨.buffered, entry? contentKey entries⟩)
  -- An array is read in its order, with nothing held back.
  | .array [] => .error (.invalidLength 0 ("adjacently tagged enum " ++ name))
  | .array (d :: rest) => do
    let tag ← readLeadingTag known d
    match rest with
    | [] => .error (.invalidLength 1 ("adjacently tagged enum " ++ name))
    | content :: _ => return (tag, ⟨source, some content⟩)
  | d => .error (mismatch d ("adjacently tagged enum " ++ name))

/-- An adjacently tagged array holds nothing but the tag and the content. -/
def checkPair (source : Source) : Document → Except DecodeError Unit
  | .array (_ :: _ :: extra) =>
    if extra.isEmpty then .ok () else .error (overlong source (extra.length + 2) 2)
  | _ => .ok ()

/--
The fields of an adjacently tagged constructor. One without fields may do without content, or have
null; the fields of the others stand in an object.
-/
def readContent {τ σ : Type} (fields : Fields τ σ) (label : String)
    (read : Document → Except DecodeError τ) (content : Option Document) :
    Except DecodeError τ :=
  match content with
  | none =>
    if fields.length = 0 then fields.finish fields.blank else .error (.missingField contentKey)
  | some .null =>
    if fields.length = 0 then fields.finish fields.blank else .error (mismatch .null label)
  | some (.object entries) =>
    if fields.length = 0 then .error (mismatch (.object entries) label) else read (.object entries)
  | some d => .error (mismatch d label)

/-! ## Descriptions -/

mutual

def Desc.decode : {α : Type} → Desc α → Source → Document → Except DecodeError α
  | _, .text, _, d => readString "a string" d
  | _, .flag, _, d =>
    match d with
    | .bool b => .ok b
    | d => .error (mismatch d "a boolean")
  | _, .integer form, _, d => readInteger form d
  | _, .any, _, d =>
    match d.value? with
    | some v => .ok v
    | none => .error .malformed
  -- Null is always the missing value, even where the content could be null itself.
  | _, .optional content, source, d =>
    match d with
    | .null => .ok none
    | d => (content.decode source d).map some
  | _, .list item, source, d =>
    match d with
    | .array items => readItems (item.decode source) items
    | d => .error (mismatch d "a sequence")
  | _, .map value, source, d =>
    match d with
    | .object entries => readEntries (value.decode source) ∅ entries
    | d => .error (mismatch d "a map")
  | _, .enumeration names _, _, d => do
    let name ← readName (names.map (·.1)) d
    match names.find? fun entry => entry.1 = name with
    | some entry => .ok entry.2
    | none => .error (.unknownVariant name (names.map (·.1)))
  | _, .record name fields build _ _, source, d =>
    let label := "struct " ++ name
    (assemble fields source label (fields.visit source)
      (fields.take source (withElements label fields) 0) d).map build
  -- The fields have been held back until the tag is known, and are read from there.
  | _, .tagged name variants other, source, d => do
    let (tag, body) ← splitTag name variants.tags source d
    match tag with
    | none => readOther name other body
    | some tag =>
      match variants.decode false .buffered tag ⟨.buffered, some body⟩ with
      | some result => result
      | none => readOther name other body
  | _, .adjacent name variants, source, d => do
    let (tag, content) ← splitContent name variants.tags source d
    match variants.decode true content.source tag content with
    | some result => do
      let x ← result
      -- An array that is too long is at fault only after its content was read.
      checkPair source d
      return x
    | none => .error (.unknownVariant tag variants.tags)

/-- Offers an entry to the fields: the one of its name takes it; with none it is passed over. -/
def Fields.visit : {τ σ : Type} → Fields τ σ → Source → String → Document → σ → Except DecodeError σ
  -- Nobody looks at an unknown entry, but its text has to be read to the end.
  | _, _, .nil, _, _, d, slots => if d.intact then .ok slots else .error .malformed
  | _, _, .cons name value _ rest, source, key, d, (slot, slots) =>
    if key = name then
      match slot with
      | some _ => .error (.duplicateField name)
      | none => (value.decode source d).map fun x => (some x, slots)
    else (rest.visit source key d slots).map fun slots => (slot, slots)

/-- Takes the fields from the front of an array, and returns the elements that are left. -/
def Fields.take : {τ σ : Type} → Fields τ σ → Source → String → Nat → List Document →
    Except DecodeError (τ × List Document)
  | _, _, .nil, _, _, _, items => .ok ((), items)
  | _, _, .cons _ _ default rest, source, label, index, [] =>
    -- The elements have run out, so what is left must have a default.
    match default with
    | some x => (rest.take source label (index + 1) []).map fun r => ((x, r.1), r.2)
    | none => .error (.invalidLength index label)
  | _, _, .cons _ value _ rest, source, label, index, d :: items => do
    let x ← value.decode source d
    let r ← rest.take source label (index + 1) items
    return ((x, r.1), r.2)

/-- Reads the constructor of a tag from its fields or its content; none if there is none. -/
def Variants.decode : {α : Type} → Variants α → Bool → Source → String → Content →
    Option (Except DecodeError α)
  | _, .nil, _, _, _, _ => none
  | _, .cons tag label fields inject _ _ rest, apart, source, key, content =>
    if key = tag then
      let read := assemble fields source label (fields.visit source)
        (fields.take source (withElements label fields) 0)
      some ((if apart then readContent fields label read content.document
        else read (content.document.getD .broken)).map inject)
    else rest.decode apart source key content

end

namespace Desc

variable {α : Type}

def read (d : Desc α) (v : Json) : Except DecodeError α := d.decode .value (.ofJson v)

/-- Reads JSON text as it goes along; whatever follows the document is a fault. -/
def readText (d : Desc α) (text : String) : Except DecodeError α :=
  let reading := Document.ofText text
  -- A fault in the document comes before one behind it.
  match d.decode .text reading.document with
  | .ok x => if reading.whole then .ok x else .error .malformed
  | .error e => .error e

end Desc

end ThreadCache.Wire
