import Mathlib.Data.List.Forall2
import ThreadCache.Wire.Decoding
import ThreadCache.Wire.Encoding

/-!
# Spellings

A value may be written in more ways than the one that writing it chooses: a record as an object
with its entries in any order, with entries that nobody knows and without entries that a default
makes up for, or as the array of its fields.

## Main result

`Desc.decode_of_spells`: every spelling of a value is read as the value, if the description is
lawful.

## Proof strategy

The fields of a record are filled one by one. What has been filled after some entries depends on
their names only (`Fields.held`), because a spelling gives the field of a name no other value than
its own; so one entry adds its name to those seen (`Fields.visit_of_accepts`), and after the last
the missing fields have their defaults (`Fields.finish_held`).
-/

namespace ThreadCache.Wire

/-! ### What a spelling is -/

/-- The fields without an entry hold their defaults. -/
def Fields.Covers : {τ σ : Type} → Fields τ σ → τ → List String → Prop
  | _, _, .nil, _, _ => True
  | _, _, .cons name _ default rest, (x, xs), keys =>
    (name ∈ keys ∨ default = some x) ∧ rest.Covers xs keys

/--
A spelling of a record: an object without repeated names that covers the fields and of which each
entry is accepted, or an array.
-/
def Spelled (covers : List String → Prop) (accepts : String → Document → Prop)
    (itemized : List Document → Prop) : Document → Prop
  | .object entries =>
    ∃ keys : List String, entries.map (·.1) = keys.map some ∧ keys.Nodup ∧ covers keys ∧
      ∀ key d, (some key, d) ∈ entries → accepts key d
  | .array items => itemized items
  | _ => False

/-- A tagged document, its tag, and what is left without it. -/
inductive Tagged : Document → String → Document → Prop
  | object (entries : List (Option String × Document)) (tag : String)
      (found : entry? tagKey entries = some (.string tag)) :
      Tagged (.object entries) tag (.object (entries.filter fun entry => entry.1 ≠ some tagKey))
  | array (tag : String) (items : List Document) :
      Tagged (.array (.string tag :: items)) tag (.array items)

/-- A spelling of the fields that stand apart from their tag. -/
def SpelledContent (length : Nat) (spelled : Document → Prop) : Option Document → Prop
  | none => length = 0
  | some .null => length = 0
  | some (.object entries) => length ≠ 0 ∧ spelled (.object entries)
  | some _ => False

mutual

def Desc.Spells : {α : Type} → Desc α → α → Document → Prop
  | _, .text, s, d => d = .string s
  | _, .flag, b, d => d = .bool b
  | _, .integer form, n, d => d = .int (form.toInt n)
  | _, .any, v, d => d.value? = some v
  | _, .optional _, none, d => d = .null
  | _, .optional content, some x, d => d ≠ .null ∧ content.Spells x d
  | _, .list item, xs, d => ∃ items, d = .array items ∧ List.Forall₂ item.Spells xs items
  | _, .map value, m, d =>
    ∃ entries, d = .object entries ∧
      List.Forall₂ (fun entry written => written.1 = some entry.1 ∧ value.Spells entry.2 written.2)
        m.entries entries
  | _, .enumeration _ nameOf, x, d => d = .string (nameOf x)
  | _, .record _ fields _ parts _, x, d =>
    Spelled (fields.Covers (parts x)) (fields.Accepts (parts x)) (fields.Itemized (parts x)) d
  | _, .tagged _ variants other, x, d =>
    ∃ tag body, Tagged d tag body ∧
      (variants.Spells false x tag (some body) ∨
        tag ∉ variants.tags ∧ x = other ∧
          Spelled (fun _ => True) (fun _ _ => True) (fun items => items = []) body)
  | _, .adjacent _ variants, x, d =>
    ∃ tag entries, d = .object entries ∧ entry? tagKey entries = some (.string tag) ∧
      variants.Spells true x tag ( entry? contentKey entries)

/-- The field of the name has the document as a spelling; unknown names take any document. -/
def Fields.Accepts : {τ σ : Type} → Fields τ σ → τ → String → Document → Prop
  | _, _, .nil, _, _, d => d.intact
  | _, _, .cons name value _ rest, (x, xs), key, d =>
    if key = name then value.Spells x d else rest.Accepts xs key d

/-- The documents are spellings of the fields in their order; those left off hold their defaults. -/
def Fields.Itemized : {τ σ : Type} → Fields τ σ → τ → List Document → Prop
  | _, _, .nil, _, items => items = []
  | _, _, .cons _ _ default rest, (x, xs), [] => default = some x ∧ rest.Itemized xs []
  | _, _, .cons _ value _ rest, (x, xs), d :: items => value.Spells x d ∧ rest.Itemized xs items

/-- The content is a spelling of the fields of a value's constructor, and the tag is its tag. -/
def Variants.Spells : {α : Type} → Variants α → Bool → α → String → Option Document → Prop
  | _, .nil, _, _, _, _ => False
  | _, .cons tag _ fields _ project _ rest, apart, x, key, content =>
    match project x with
    | none => rest.Spells apart x key content
    | some parts =>
      let spelled := Spelled (fields.Covers parts) (fields.Accepts parts) (fields.Itemized parts)
      key = tag ∧
        if apart then SpelledContent fields.length spelled content
        else ∃ body, content = some body ∧ spelled body

end

/-! ### Lawful descriptions -/

mutual

/--
No two fields of a record and no two constructors of a type share a name, every constructor is
known, no field has the name of a tag, and what is optional is never written as null.
-/
def Desc.Lawful : {α : Type} → Desc α → Prop
  | _, .text => True
  | _, .flag => True
  | _, .integer _ => True
  | _, .any => True
  | _, .optional content => content.Lawful ∧ ∀ x, content.encode x ≠ .null
  | _, .list item => item.Lawful
  | _, .map value => value.Lawful
  | _, .enumeration names nameOf =>
    ∀ x, ∃ name, names.find? (fun entry => entry.1 = nameOf x) = some (name, x)
  | _, .record _ fields _ _ _ => fields.Lawful
  | _, .tagged _ variants _ => variants.Lawful ∧ ∀ x, variants.encode x ≠ none
  | _, .adjacent _ variants => variants.Lawful ∧ ∀ x, variants.encode x ≠ none

def Fields.Lawful : {τ σ : Type} → Fields τ σ → Prop
  | _, _, .nil => True
  | _, _, .cons name value _ rest => value.Lawful ∧ name ∉ rest.names ∧ rest.Lawful

def Variants.Lawful : {α : Type} → Variants α → Prop
  | _, .nil => True
  | _, .cons tag _ fields _ _ _ rest =>
    fields.Lawful ∧ tagKey ∉ fields.names ∧ tag ∉ rest.tags ∧ rest.Lawful

end

/-! ### Filling the fields of a record -/

namespace Fields

variable {τ σ : Type}

/-- The slots after entries with the given names. -/
def held : {τ σ : Type} → Fields τ σ → τ → List String → σ
  | _, _, .nil, _, _ => ()
  | _, _, .cons name _ _ rest, (x, xs), seen =>
    (if name ∈ seen then some x else none, rest.held xs seen)

/-- One more name makes no difference to another one. -/
theorem seen_iff_of_ne {name key : String} (other : key ≠ name) {seen : List String} :
    name ∈ seen ++ [key] ↔ name ∈ seen := by
  rw [List.mem_append, List.mem_singleton]
  exact or_iff_left (Ne.symm other)

theorem held_nil : ∀ {τ σ : Type} (fields : Fields τ σ) (parts : τ),
    fields.held parts [] = fields.blank
  | _, _, .nil, _ => rfl
  | _, _, .cons name value default rest, (x, xs) => by
    rw [held, blank, rest.held_nil xs, if_neg List.not_mem_nil]

theorem held_of_unknown : ∀ {τ σ : Type} (fields : Fields τ σ) (parts : τ) {key : String}
    (seen : List String), key ∉ fields.names →
      fields.held parts (seen ++ [key]) = fields.held parts seen
  | _, _, .nil, _, _, _, _ => rfl
  | _, _, .cons name value default rest, (x, xs), key, seen, unknown => by
    rw [names, List.mem_cons, not_or] at unknown
    rw [held, held, rest.held_of_unknown xs seen unknown.2]
    simp only [seen_iff_of_ne unknown.1]

theorem finish_held : ∀ {τ σ : Type} (fields : Fields τ σ) (parts : τ) (keys : List String),
    fields.Covers parts keys → fields.finish (fields.held parts keys) = .ok parts
  | _, _, .nil, _, _, _ => rfl
  | _, _, .cons name value default rest, (x, xs), keys, covers => by
    obtain ⟨first, others⟩ := covers
    -- A slot is filled by an entry or else from the default, and covering means one of the two.
    have filled : ((if name ∈ keys then some x else none) <|> default) = some x := by
      by_cases seen : name ∈ keys
      · rw [if_pos seen]
        rfl
      · rw [if_neg seen, first.resolve_left seen]
        rfl
    rw [held, finish, filled, rest.finish_held xs keys others]
    rfl

theorem visit_of_ne {β : Type} {name key : String} (other : key ≠ name) (value : Desc β)
    (default : Option β) (rest : Fields τ σ) (source : Source) (d : Document) (slot : Option β)
    (slots : σ) : (cons name value default rest).visit source key d (slot, slots) =
      (rest.visit source key d slots).map fun slots => (slot, slots) := by
  cases slot with
  | none => rw [visit, if_neg other]
  | some _ => rw [visit, if_neg other]

theorem finish_blank_of_length_eq_zero {fields : Fields τ σ} (none : fields.length = 0)
    (parts : τ) : fields.finish fields.blank = .ok parts := by
  cases fields with
  | nil => rfl
  | cons => cases none

end Fields

/-- Visiting entries one by one adds their names to those seen. -/
theorem visitEntries_held {τ σ : Type} {fields : Fields τ σ} {parts : τ}
    {visit : String → Document → σ → Except DecodeError σ} {accepts : String → Document → Prop}
    (visits : ∀ key d seen, key ∉ seen → accepts key d →
      visit key d (fields.held parts seen) = .ok (fields.held parts (seen ++ [key]))) :
    ∀ (keys seen : List String) (entries : List (Option String × Document)),
      entries.map (·.1) = keys.map some → (seen ++ keys).Nodup →
      (∀ key d, (some key, d) ∈ entries → accepts key d) →
      visitEntries visit entries (fields.held parts seen) =
        .ok (fields.held parts (seen ++ keys)) := by
  -- The induction is on the names in their order; the entries follow them one to one.
  intro keys
  induction keys with
  | nil =>
    intro seen entries named _ _
    rw [List.map_eq_nil_iff.mp named, List.append_nil]
    rfl
  | cons key keys ih =>
    intro seen entries named distinct accepted
    cases entries with
    | nil => cases named
    | cons entry entries =>
      obtain ⟨name, d⟩ := entry
      rw [List.map_cons, List.map_cons, List.cons.injEq] at named
      obtain ⟨rfl, named⟩ := named
      -- No name comes twice, so the slot of this one is still empty.
      have fresh : key ∉ seen := by
        intro again
        exact (List.nodup_append.mp distinct).2.2 key again key List.mem_cons_self rfl
      have first := visits key d seen fresh (accepted key d List.mem_cons_self)
      rw [List.append_cons] at distinct ⊢
      have others := ih (seen ++ [key]) entries named distinct
        fun k e member => accepted k e (List.mem_cons_of_mem _ member)
      rw [visitEntries, first]
      exact others

theorem assemble_of_spelled {τ σ : Type} {fields : Fields τ σ} {parts : τ}
    {visit : String → Document → σ → Except DecodeError σ}
    {take : List Document → Except DecodeError (τ × List Document)}
    {accepts : String → Document → Prop} {itemized : List Document → Prop}
    (visits : ∀ key d seen, key ∉ seen → accepts key d →
      visit key d (fields.held parts seen) = .ok (fields.held parts (seen ++ [key])))
    (takes : ∀ items, itemized items → take items = .ok (parts, []))
    (source : Source) (label : String) {d : Document}
    (spelled : Spelled (fields.Covers parts) accepts itemized d) :
    assemble fields source label visit take d = .ok parts := by
  -- Only objects and arrays spell a record.
  cases d with
  | object entries =>
    obtain ⟨keys, named, distinct, covers, accepted⟩ := spelled
    have visited := visitEntries_held visits keys [] entries named distinct accepted
    rw [Fields.held_nil, List.nil_append] at visited
    rw [assemble, visited]
    exact fields.finish_held parts keys covers
  | array items =>
    rw [assemble, takes items spelled]
    rfl
  | null => exact spelled.elim
  | bool _ => exact spelled.elim
  | int _ => exact spelled.elim
  | double _ => exact spelled.elim
  | string _ => exact spelled.elim
  | garbled => exact spelled.elim
  | broken => exact spelled.elim

/-! ### Reading spellings -/

theorem readItems_of_forall₂ {α : Type} {read : Document → Except DecodeError α}
    {xs : List α} {items : List Document}
    (spelled : List.Forall₂ (fun x d => read d = .ok x) xs items) :
    readItems read items = .ok xs := by
  induction spelled with
  | nil => rfl
  | cons first _ ih =>
    rw [readItems, first, ih]
    rfl

theorem readEntries_of_forall₂ {α : Type} {read : Document → Except DecodeError α}
    {held : List (String × α)} {entries : List (Option String × Document)}
    (spelled : List.Forall₂ (fun entry written => written.1 = some entry.1 ∧
      read written.2 = .ok entry.2) held entries) (done : SortedMap α) :
    readEntries read done entries = .ok (done.insertMany held) := by
  -- What has been read so far is carried along, for later entries to be written over it.
  induction spelled generalizing done with
  | nil => rfl
  | @cons entry written held entries first _ ih =>
    obtain ⟨name, d⟩ := written
    obtain ⟨rfl, value⟩ := first
    rw [readEntries, value]
    exact ih (done.insert entry.1 entry.2)

theorem splitTag_of_tagged {d body : Document} {tag : String} (tagged : Tagged d tag body)
    (name : String) (tags : List String) (source : Source) :
    splitTag name tags source d = .ok (some tag, body) := by
  cases tagged with
  | object entries tag found =>
    rw [splitTag, found]
    rfl
  | array tag items => rfl

/-- A constructor without fields takes whatever entries there are. -/
theorem readOther_of_plain {α : Type} (name : String) (other : α) {body : Document}
    (plain : Spelled (fun _ => True) (fun _ _ => True) (fun items => items = []) body) :
    readOther name other body = .ok other := by
  -- It is read like a record without fields, whose entries are all unknown.
  have visits : ∀ (key : String) (d : Document) (seen : List String), key ∉ seen → True →
      (fun _ _ slots => .ok slots : String → Document → Unit → Except DecodeError Unit) key d
        (Fields.nil.held () seen) = .ok (Fields.nil.held () (seen ++ [key])) :=
    fun _ _ _ _ _ => rfl
  have takes : ∀ items : List Document, items = [] →
      (fun items => .ok ((), items) : List Document → Except DecodeError (Unit × List Document))
        items = .ok ((), []) := by
    rintro _ rfl
    rfl
  have read := assemble_of_spelled visits takes .buffered name plain
  rw [readOther, read]
  rfl

theorem readContent_of_spelled {τ σ : Type} {fields : Fields τ σ} {parts : τ}
    {read : Document → Except DecodeError τ} {spelled : Document → Prop}
    (reads : ∀ d, spelled d → read d = .ok parts) (label : String) {content : Option Document}
    (spells : SpelledContent fields.length spelled content) :
    readContent fields label read content = .ok parts := by
  unfold SpelledContent at spells
  -- The content is left out, null, an object, or no spelling at all.
  split at spells
  next => rw [readContent, if_pos spells, Fields.finish_blank_of_length_eq_zero spells]
  next => rw [readContent, if_pos spells, Fields.finish_blank_of_length_eq_zero spells]
  next => rw [readContent, if_neg spells.1, reads _ spells.2]
  next => exact spells.elim

theorem Variants.mem_tags_of_spells : ∀ {α : Type} (variants : Variants α) {apart : Bool} {x : α}
    {tag : String} {content : Option Document}, variants.Spells apart x tag content →
      tag ∈ variants.tags
  | _, .nil, _, _, _, _, spells => by
    rw [Variants.Spells] at spells
    exact spells.elim
  | _, .cons tag label fields inject project inject_project rest, apart, x, key, content,
      spells => by
    rw [Variants.Spells] at spells
    -- The value is of a later constructor or of this one.
    split at spells
    next => exact List.mem_cons_of_mem _ (rest.mem_tags_of_spells spells)
    next =>
      obtain ⟨rfl, _⟩ := spells
      exact List.mem_cons_self

theorem Variants.decode_of_unknown : ∀ {α : Type} (variants : Variants α) (apart : Bool)
    (source : Source) {tag : String} (content : Content), tag ∉ variants.tags →
      variants.decode apart source tag content = none
  | _, .nil, _, _, _, _, _ => rfl
  | _, .cons tag label fields inject project inject_project rest, apart, source, key, content,
      unknown => by
    rw [tags, List.mem_cons, not_or] at unknown
    rw [decode, if_neg unknown.1]
    exact rest.decode_of_unknown apart source content unknown.2

mutual

/-- Every spelling of a value is read as the value. -/
theorem Desc.decode_of_spells : ∀ {α : Type} (desc : Desc α), desc.Lawful →
    ∀ (source : Source) (x : α) (d : Document), desc.Spells x d → desc.decode source d = .ok x
  | _, .text, _, _, _, _, spells => by
    rw [Desc.Spells] at spells
    rw [spells]
    rfl
  | _, .flag, _, _, _, _, spells => by
    rw [Desc.Spells] at spells
    rw [spells]
    rfl
  | _, .integer form, _, _, n, _, spells => by
    rw [Desc.Spells] at spells
    rw [spells, Desc.decode, readInteger, form.ofInt?_toInt n]
  | _, .any, _, _, _, _, spells => by
    rw [Desc.Spells] at spells
    rw [Desc.decode, spells]
  | _, .optional content, _, _, none, _, spells => by
    rw [Desc.Spells] at spells
    rw [spells]
    rfl
  | _, .optional content, lawful, source, some x, d, spells => by
    rw [Desc.Spells] at spells
    obtain ⟨notNull, spells⟩ := spells
    have value := content.decode_of_spells lawful.1 source x d spells
    cases d with
    | null => exact absurd rfl notNull
    | _ =>
      rw [Desc.decode, value]
      · rfl
      · exact notNull
  | _, .list item, lawful, source, xs, _, spells => by
    rw [Desc.Spells] at spells
    obtain ⟨items, rfl, spells⟩ := spells
    exact readItems_of_forall₂ (spells.imp fun x d => item.decode_of_spells lawful source x d)
  | _, .map value, lawful, source, m, _, spells => by
    rw [Desc.Spells] at spells
    obtain ⟨entries, rfl, spells⟩ := spells
    have read := readEntries_of_forall₂ (spells.imp fun entry written each =>
      ⟨each.1, value.decode_of_spells lawful source entry.2 written.2 each.2⟩) ∅
    rw [Desc.decode, read]
    exact congrArg _ m.ofList_entries
  | _, .enumeration names nameOf, lawful, _, x, d, spells => by
    rw [Desc.Spells] at spells
    obtain ⟨name, found⟩ := lawful x
    have known : nameOf x ∈ names.map (·.1) := by
      have named := List.find?_some found
      exact List.mem_map.mpr ⟨_, List.mem_of_find?_eq_some found, of_decide_eq_true named⟩
    have read : readName (names.map (·.1)) d = .ok (nameOf x) := by
      rw [spells, readName, if_pos known]
    rw [Desc.decode, read]
    simp only [bind, Except.bind, found]
  | _, .record name fields build parts build_parts, lawful, source, x, d, spells => by
    rw [Desc.Spells] at spells
    have assembled := assemble_of_spelled
      (fun key d seen fresh accepts =>
        fields.visit_of_accepts lawful source (parts x) key d seen fresh accepts)
      (fields.take_of_itemized lawful source (withElements ("struct " ++ name) fields) (parts x) 0)
      source ("struct " ++ name) spells
    rw [Desc.decode, assembled]
    exact congrArg _ (build_parts x)
  | _, .tagged name variants other, lawful, source, x, d, spells => by
    rw [Desc.Spells] at spells
    obtain ⟨tag, body, tagged, spells⟩ := spells
    rw [Desc.decode, splitTag_of_tagged tagged]
    -- The tag is that of a constructor, or nobody knows it.
    rcases spells with spells | ⟨unknown, rfl, plain⟩
    · have found := variants.decode_of_spells lawful.1 false .buffered x tag
        ⟨.buffered, some body⟩ spells
      simp only [bind, Except.bind, found]
    · have found := variants.decode_of_unknown false .buffered ⟨.buffered, some body⟩ unknown
      simp only [bind, Except.bind, found]
      exact readOther_of_plain name x plain
  | _, .adjacent name variants, lawful, source, x, d, spells => by
    rw [Desc.Spells] at spells
    obtain ⟨tag, entries, rfl, tagged, spells⟩ := spells
    have known := variants.mem_tags_of_spells spells
    have found := variants.decode_of_spells lawful.1 true .buffered x tag
      ⟨.buffered, entry? contentKey entries⟩ spells
    have split : splitContent name variants.tags source (.object entries) =
        .ok (tag, ⟨.buffered, entry? contentKey entries⟩) := by
      rw [splitContent, tagged]
      simp only [readName, if_pos known]
      rfl
    rw [Desc.decode, split]
    simp only [bind, Except.bind, found]
    rfl

theorem Fields.visit_of_accepts : ∀ {τ σ : Type} (fields : Fields τ σ), fields.Lawful →
    ∀ (source : Source) (parts : τ) (key : String) (d : Document) (seen : List String),
      key ∉ seen → fields.Accepts parts key d →
        fields.visit source key d (fields.held parts seen) =
          .ok (fields.held parts (seen ++ [key]))
  | _, _, .nil, _, _, _, _, _, _, _, accepts => by
    rw [Fields.Accepts] at accepts
    rw [Fields.visit, if_pos accepts]
  | _, _, .cons name value default rest, lawful, source, (x, xs), key, d, seen, fresh, accepts => by
    obtain ⟨first, apart, others⟩ := lawful
    rw [Fields.Accepts] at accepts
    rw [Fields.held, Fields.held]
    -- The entry is for the first field or for one of the rest.
    by_cases same : key = name
    · subst same
      rw [if_pos rfl] at accepts
      rw [if_neg fresh, if_pos (List.mem_append_right seen List.mem_cons_self),
        rest.held_of_unknown xs seen apart, Fields.visit, if_pos rfl,
        value.decode_of_spells first source x d accepts]
      rfl
    · rw [if_neg same] at accepts
      rw [Fields.visit_of_ne same,
        rest.visit_of_accepts others source xs key d seen fresh accepts]
      simp only [Fields.seen_iff_of_ne same]
      rfl

theorem Fields.take_of_itemized : ∀ {τ σ : Type} (fields : Fields τ σ), fields.Lawful →
    ∀ (source : Source) (label : String) (parts : τ) (index : Nat) (items : List Document),
      fields.Itemized parts items → fields.take source label index items = .ok (parts, [])
  | _, _, .nil, _, _, _, _, _, _, itemized => by
    rw [Fields.Itemized] at itemized
    rw [itemized]
    rfl
  | _, _, .cons name value default rest, lawful, source, label, (x, xs), index, [], itemized => by
    rw [Fields.Itemized] at itemized
    have later := rest.take_of_itemized lawful.2.2 source label xs (index + 1) [] itemized.2
    rw [itemized.1, Fields.take, later]
    rfl
  | _, _, .cons name value default rest, lawful, source, label, (x, xs), index, d :: items,
      itemized => by
    rw [Fields.Itemized] at itemized
    have first := value.decode_of_spells lawful.1 source x d itemized.1
    have later := rest.take_of_itemized lawful.2.2 source label xs (index + 1) items itemized.2
    rw [Fields.take, first]
    simp only [bind, Except.bind, later]
    rfl

/-- The constructor of a spelled value is found and read. -/
theorem Variants.decode_of_spells : ∀ {α : Type} (variants : Variants α), variants.Lawful →
    ∀ (apart : Bool) (source : Source) (x : α) (tag : String) (content : Content),
      variants.Spells apart x tag content.document →
        variants.decode apart source tag content = some (.ok x)
  | _, .nil, _, _, _, _, _, _, spells => by
    rw [Variants.Spells] at spells
    exact spells.elim
  | _, .cons tag label fields inject project inject_project rest, lawful, apart, source, x, key,
      content, spells => by
    obtain ⟨first, _, distinct, others⟩ := lawful
    rw [Variants.Spells] at spells
    rw [Variants.decode]
    -- The constructor is another one, whose tag is another one too, or it is this one.
    split at spells
    next =>
      have later : key ≠ tag := by
        rintro rfl
        exact distinct (rest.mem_tags_of_spells spells)
      rw [if_neg later]
      exact rest.decode_of_spells others apart source x key content spells
    next parts projected =>
      obtain ⟨rfl, spells⟩ := spells
      have reads : ∀ d, Spelled (fields.Covers parts) (fields.Accepts parts)
          (fields.Itemized parts) d → assemble fields source label (fields.visit source)
            (fields.take source (withElements label fields) 0) d = .ok parts := fun d spelled =>
        assemble_of_spelled
          (fun key d seen fresh accepts =>
            fields.visit_of_accepts first source parts key d seen fresh accepts)
          (fields.take_of_itemized first source (withElements label fields) parts 0)
          source label spelled
      rw [if_pos rfl]
      cases apart with
      | true =>
        rw [if_pos rfl] at spells
        have read := readContent_of_spelled reads label spells
        simp only [if_pos, read]
        exact congrArg (fun x => some (Except.ok x)) (inject_project x parts projected)
      | false =>
        obtain ⟨body, present, spelled⟩ := spells
        have read := reads body spelled
        simp only [if_neg Bool.false_ne_true, present, Option.getD_some, read]
        exact congrArg (fun x => some (Except.ok x)) (inject_project x parts projected)

end

end ThreadCache.Wire
