import ThreadCache.Json.Document

/-!
# Documents and their text

## Main result

`ofText_text`: the compact text of a legible document reads back as the document. A document is
legible if it holds no faults and no numbers; strings may hold any characters.

## Proof strategy

Written strings, names and containers are followed through the scanner and the stack of open
containers at once: reading the text of a value, whatever comes after it, delivers the value to the
innermost container (`read_value`). No token of a legible document depends on what follows it, so
nothing has to be known of the rest of the text.
-/

namespace ThreadCache

/-! ### Strings -/

namespace Token

/-- The piece that a written character is read as. -/
inductive Piece.Of (c : Char) : Piece → Prop
  | plain : Piece.Of c (.char c)
  | escaped (control : c.toNat < 0x20) : Piece.Of c (.escape c.toNat)

theorem characters?_cons_escape {unit : Nat} (small : unit < 0xD800) (pieces : List Piece) :
    characters? (.escape unit :: pieces) = (characters? pieces).map (Char.ofNat unit :: ·) := by
  have notHigh : ¬ (0xD800 ≤ unit ∧ unit ≤ 0xDBFF) := by omega
  have notLow : ¬ (0xDC00 ≤ unit ∧ unit ≤ 0xDFFF) := by omega
  have notSurrogate : ¬ (0xD800 ≤ unit ∧ unit ≤ 0xDFFF) := by omega
  -- The reader looks ahead for an escape that might be the other half of a pair.
  cases pieces with
  | nil => simp only [characters?, if_neg notSurrogate]
  | cons piece pieces =>
    cases piece with
    | char c => simp only [characters?, if_neg notSurrogate]
    | escape low => rw [characters?, if_neg notHigh, if_neg notLow]

theorem characters?_cons_of {c : Char} {piece : Piece} (written : piece.Of c)
    (pieces : List Piece) : characters? (piece :: pieces) = (characters? pieces).map (c :: ·) := by
  cases written with
  | plain => rfl
  | escaped control =>
    rw [characters?_cons_escape (by omega), Char.ofNat_toNat]

theorem hexUnit?_control : ∀ n < 0x20,
    hexUnit? '0' '0' (Document.hexDigit (n / 16)) (Document.hexDigit (n % 16)) = some n := by
  decide

theorem stringBody_plain {c : Char} (quote : c ≠ '"') (backslash : c ≠ '\\')
    (printable : ¬ c.toNat < 0x20) {cs after : List Char} {pieces : List Piece}
    (others : stringBody cs = some (pieces, after)) :
    stringBody (c :: cs) = some (.char c :: pieces, after) := by
  unfold stringBody
  split <;> simp_all

/-- A written character is read as a piece of its own, whatever follows it. -/
theorem stringBody_escape (c : Char) :
    ∃ piece : Piece, piece.Of c ∧ ∀ cs pieces after, stringBody cs = some (pieces, after) →
      stringBody (Document.escape c ++ cs) = some (piece :: pieces, after) := by
  unfold Document.escape
  split
  -- The seven characters with an escape of one letter.
  iterate 7
    next => exact ⟨_, .plain, fun cs pieces after others => by simp [stringBody, escaped?, others]⟩
  next quote backslash _ _ _ _ _ =>
    split
    next control =>
      refine ⟨_, .escaped control, fun cs pieces after others => ?_⟩
      simp only [List.cons_append, List.nil_append, stringBody,
        hexUnit?_control c.toNat control, others]
    next printable =>
      exact ⟨_, .plain, fun cs pieces after others =>
        stringBody_plain quote backslash printable others⟩

/-- The body of a written string reads back as its characters. -/
theorem stringBody_flatMap_escape (cs rest : List Char) :
    ∃ pieces, stringBody (cs.flatMap Document.escape ++ '"' :: rest) = some (pieces, rest) ∧
      characters? pieces = some cs := by
  -- Each character is read by itself, whatever is written after it.
  induction cs with
  | nil => exact ⟨[], rfl, rfl⟩
  | cons c cs ih =>
    obtain ⟨pieces, body, characters⟩ := ih
    obtain ⟨piece, written, reads⟩ := stringBody_escape c
    refine ⟨piece :: pieces, ?_, ?_⟩
    · rw [List.flatMap_cons, List.append_assoc]
      exact reads _ pieces rest body
    · rw [characters?_cons_of written, characters]
      rfl

theorem scan_quoted {cs after : List Char} {pieces : List Piece}
    (body : stringBody cs = some (pieces, after)) :
    scan ('"' :: cs) = ofPieces pieces :: scan after := by
  rw [scan]
  -- The scanner reads the body once more, with the same result.
  split
  next other =>
    rw [body] at other
    cases other
    rfl
  next none =>
    rw [body] at none
    cases none

theorem scan_quote (s : String) (rest : List Char) :
    scan (Document.quote s ++ rest) = .string s :: scan rest := by
  obtain ⟨pieces, body, characters⟩ := stringBody_flatMap_escape s.toList rest
  have text : Document.quote s ++ rest =
      '"' :: (s.toList.flatMap Document.escape ++ '"' :: rest) := by
    simp [Document.quote]
  rw [text, scan_quoted body, ofPieces, characters]
  simp

/-! ### Punctuation and words -/

/-- A punctuation mark is a token by itself. -/
theorem scan_punctuation {c : Char} {token : Token} (known : punctuation? c = some token)
    (cs : List Char) : scan (c :: cs) = token :: scan cs := by
  unfold punctuation? at known
  -- There are six marks, and none of them starts a word, a string or a number.
  split at known <;> cases known
  all_goals rw [scan] <;> simp [isBlank, punctuation?]

theorem scan_openArray (cs : List Char) : scan ('[' :: cs) = .openArray :: scan cs :=
  scan_punctuation rfl cs

theorem scan_closeArray (cs : List Char) : scan (']' :: cs) = .closeArray :: scan cs :=
  scan_punctuation rfl cs

theorem scan_openObject (cs : List Char) : scan ('\x7b' :: cs) = .openObject :: scan cs :=
  scan_punctuation rfl cs

theorem scan_closeObject (cs : List Char) : scan ('\x7d' :: cs) = .closeObject :: scan cs :=
  scan_punctuation rfl cs

theorem scan_comma (cs : List Char) : scan (',' :: cs) = .comma :: scan cs :=
  scan_punctuation rfl cs

theorem scan_colon (cs : List Char) : scan (':' :: cs) = .colon :: scan cs :=
  scan_punctuation rfl cs

theorem scan_null (cs : List Char) : scan ('n' :: 'u' :: 'l' :: 'l' :: cs) = .null :: scan cs := by
  rw [scan]

theorem scan_true (cs : List Char) :
    scan ('t' :: 'r' :: 'u' :: 'e' :: cs) = .bool true :: scan cs := by
  rw [scan]

theorem scan_false (cs : List Char) :
    scan ('f' :: 'a' :: 'l' :: 's' :: 'e' :: cs) = .bool false :: scan cs := by
  rw [scan]

end Token

namespace Document

/-! ### Legible documents -/

mutual

/-- The document holds no faults and no numbers. -/
def Legible : Document → Prop
  | .null => True
  | .bool _ => True
  | .int _ => False
  | .double _ => False
  | .string _ => True
  | .array items => LegibleItems items
  | .object entries => LegibleEntries entries
  | .garbled => False
  | .broken => False

def LegibleItems : List Document → Prop
  | [] => True
  | item :: rest => item.Legible ∧ LegibleItems rest

def LegibleEntries : List (Option String × Document) → Prop
  | [] => True
  | (name, value) :: rest => name.isSome ∧ value.Legible ∧ LegibleEntries rest

end

theorem legibleItems_iff {items : List Document} :
    LegibleItems items ↔ ∀ item ∈ items, item.Legible := by
  induction items with
  | nil => simp [LegibleItems]
  | cons item rest ih => simp [LegibleItems, ih]

theorem legibleEntries_iff {entries : List (Option String × Document)} :
    LegibleEntries entries ↔ ∀ entry ∈ entries, entry.1.isSome ∧ entry.2.Legible := by
  induction entries with
  | nil => simp [LegibleEntries]
  | cons entry rest ih => simp [LegibleEntries, ih, and_assoc]

/-! ### Reading tokens -/

/-- Reading goes on after a token. -/
def resume (frames : List Frame) : Progress → List Token → Reading
  | .more frames expect, tokens => ofTokens frames expect tokens
  | .done document, tokens => ⟨document, tokens.isEmpty⟩
  | .stuck, _ => ⟨close .broken frames, false⟩

theorem ofTokens_cons (frames : List Frame) (expect : Expect) (token : Token)
    (tokens : List Token) :
    ofTokens frames expect (token :: tokens) =
      resume frames (step frames expect token) tokens := by
  rw [ofTokens]
  cases step frames expect token <;> rfl

theorem ofTokens_nextName (done : List (Option String × Document)) (frames : List Frame)
    (name : String) (tokens : List Token) :
    ofTokens (.object done :: frames) .commaOrEnd (.comma :: .string name :: .colon :: tokens) =
      ofTokens (.entry done (some name) :: frames) .value tokens :=
  rfl

/-- A value may come here: an object that is open at its entries takes none. -/
def Receives : List Frame → Prop
  | .object _ :: _ => False
  | _ => True

/-- A value that is taken is taken whatever was open before it was read to its end. -/
theorem resume_deliver {frames : List Frame} (takes : Receives frames) (d : Document)
    (inner : List Frame) (tokens : List Token) :
    resume inner (deliver d frames) tokens = resume frames (deliver d frames) tokens := by
  cases frames with
  | nil => rfl
  | cons frame frames =>
    cases frame with
    | object done => exact takes.elim
    | array done => rfl
    | entry done name => rfl

/-- The first token of a legible document starts a value, so it does not close an array. -/
theorem scan_chars_head {d : Document} (legible : d.Legible) (rest : List Char) :
    ∃ token tokens, Token.scan (d.chars ++ rest) = token :: tokens ∧ token ≠ .closeArray := by
  -- The first token depends on the outermost constructor alone.
  cases d with
  | null => exact ⟨_, _, Token.scan_null rest, by simp⟩
  | bool b =>
    cases b with
    | true => exact ⟨_, _, Token.scan_true rest, by simp⟩
    | false => exact ⟨_, _, Token.scan_false rest, by simp⟩
  | string s => exact ⟨_, _, Token.scan_quote s rest, by simp⟩
  | array items =>
    cases items with
    | nil => exact ⟨_, _, Token.scan_openArray _, by simp⟩
    | cons item items => exact ⟨_, _, Token.scan_openArray _, by simp⟩
  | object entries =>
    cases entries with
    | nil => exact ⟨_, _, Token.scan_openObject _, by simp⟩
    | cons entry entries => exact ⟨_, _, Token.scan_openObject _, by simp⟩
  | int _ => exact legible.elim
  | double _ => exact legible.elim
  | garbled => exact legible.elim
  | broken => exact legible.elim

/-- Where an array may also end, a legible document is read as it is where a value must come. -/
theorem ofTokens_itemOrEnd {d : Document} (legible : d.Legible) (frames : List Frame)
    (rest : List Char) :
    ofTokens frames .itemOrEnd (Token.scan (d.chars ++ rest)) =
      ofTokens frames .value (Token.scan (d.chars ++ rest)) := by
  obtain ⟨token, tokens, scanned, starts⟩ := scan_chars_head legible rest
  rw [scanned, ofTokens_cons, ofTokens_cons]
  -- The two places differ in the end of the array only.
  cases token with
  | closeArray => exact absurd rfl starts
  | _ => rfl

mutual

/-- Reading the text of a document delivers it to the innermost open container. -/
theorem read_value : ∀ (d : Document), d.Legible →
    ∀ (frames : List Frame), Receives frames → ∀ (rest : List Char),
    ofTokens frames .value (Token.scan (d.chars ++ rest)) =
      resume frames (deliver d frames) (Token.scan rest)
  | .null, _, frames, _, rest => by
    simp only [chars, List.cons_append, List.nil_append, Token.scan_null, ofTokens_cons]
    rfl
  | .bool true, _, frames, _, rest => by
    simp only [chars, List.cons_append, List.nil_append, Token.scan_true, ofTokens_cons]
    rfl
  | .bool false, _, frames, _, rest => by
    simp only [chars, List.cons_append, List.nil_append, Token.scan_false, ofTokens_cons]
    rfl
  | .string s, _, frames, _, rest => by
    simp only [chars, Token.scan_quote, ofTokens_cons]
    rfl
  | .array [], _, frames, takes, rest => by
    simp only [chars, List.cons_append, List.nil_append, Token.scan_openArray,
      Token.scan_closeArray, ofTokens_cons, step, startValue, resume]
    exact resume_deliver takes (.array []) _ _
  | .array (item :: items), legible, frames, takes, rest => by
    obtain ⟨first, others⟩ := legible
    simp only [chars, List.cons_append, List.append_assoc, Token.scan_openArray, ofTokens_cons,
      step, startValue, resume]
    -- The first item has no comma in front; the others are read with what comes after it.
    rw [ofTokens_itemOrEnd first, read_value item first (.array [] :: frames) trivial]
    exact read_items items others [item] frames takes rest
  | .object [], _, frames, takes, rest => by
    simp only [chars, List.cons_append, List.nil_append, Token.scan_openObject,
      Token.scan_closeObject, ofTokens_cons, step, startValue, resume]
    exact resume_deliver takes (.object []) _ _
  | .object ((none, _) :: _), legible, _, _, _ => by cases legible.1
  | .object ((some name, value) :: entries), legible, frames, takes, rest => by
    obtain ⟨_, first, others⟩ := legible
    simp only [chars, Option.getD_some, List.cons_append, List.append_assoc,
      Token.scan_openObject, Token.scan_quote, Token.scan_colon, ofTokens_cons, step, startValue,
      startEntry, resume]
    -- The name and the colon have opened an entry, which takes the value.
    rw [read_value value first (.entry [] (some name) :: frames) trivial]
    exact read_entries entries others [(some name, value)] frames takes rest
  | .int _, legible, _, _, _ => legible.elim
  | .double _, legible, _, _, _ => legible.elim
  | .garbled, legible, _, _, _ => legible.elim
  | .broken, legible, _, _, _ => legible.elim

theorem read_items : ∀ (items : List Document), LegibleItems items →
    ∀ (done : List Document) (frames : List Frame), Receives frames → ∀ (rest : List Char),
    ofTokens (.array done :: frames) .commaOrEnd (Token.scan (charsItems items ++ rest)) =
      resume frames (deliver (.array (done.reverse ++ items)) frames) (Token.scan rest)
  | [], _, done, frames, takes, rest => by
    simp only [charsItems, List.cons_append, List.nil_append, Token.scan_closeArray,
      ofTokens_cons, step, List.append_nil]
    exact resume_deliver takes _ _ _
  | item :: items, legible, done, frames, takes, rest => by
    obtain ⟨first, others⟩ := legible
    simp only [charsItems, List.cons_append, List.append_assoc, Token.scan_comma, ofTokens_cons,
      step]
    rw [resume]
    rw [read_value item first (.array done :: frames) trivial]
    -- The item that was read goes to the front of those that are kept in reverse.
    have later := read_items items others (item :: done) frames takes rest
    rw [List.reverse_cons, List.append_assoc] at later
    exact later

theorem read_entries : ∀ (entries : List (Option String × Document)), LegibleEntries entries →
    ∀ (done : List (Option String × Document)) (frames : List Frame), Receives frames →
    ∀ (rest : List Char),
    ofTokens (.object done :: frames) .commaOrEnd (Token.scan (charsEntries entries ++ rest)) =
      resume frames (deliver (.object (done.reverse ++ entries)) frames) (Token.scan rest)
  | [], _, done, frames, takes, rest => by
    simp only [charsEntries, List.cons_append, List.nil_append, Token.scan_closeObject,
      ofTokens_cons, step, List.append_nil]
    exact resume_deliver takes _ _ _
  | (none, _) :: _, legible, _, _, _, _ => by cases legible.1
  | (some name, value) :: entries, legible, done, frames, takes, rest => by
    obtain ⟨_, first, others⟩ := legible
    simp only [charsEntries, Option.getD_some, List.cons_append, List.append_assoc,
      Token.scan_comma, Token.scan_quote, Token.scan_colon]
    rw [ofTokens_nextName, read_value value first (.entry done (some name) :: frames) trivial]
    have later := read_entries entries others ((some name, value) :: done) frames takes rest
    rw [List.reverse_cons, List.append_assoc] at later
    exact later

end

theorem ofText_chars (d : Document) :
    ofText d.text = ofTokens [] .value (Token.scan d.chars) := by
  rw [ofText, text, String.toList_ofList]

/-- The text of a legible document reads back as the document, and holds nothing else. -/
theorem ofText_text {d : Document} (legible : d.Legible) : ofText d.text = ⟨d, true⟩ := by
  have read := read_value d legible [] trivial []
  -- Nothing is open around the document, and nothing comes after it.
  rw [List.append_nil] at read
  rw [ofText_chars, read, Token.scan]
  rfl

end Document

end ThreadCache
