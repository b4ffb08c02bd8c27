import ThreadCache.Proofs.Json.Text
import ThreadCache.Proofs.Wire.Canonical
import ThreadCache.Proofs.Wire.Layout
import ThreadCache.Wire.Format

/-!
# Reading what was written

## Main results

* `Desc.decode_encode`: the document that a value is written as is read as the value again.
* `Desc.read_write`: so is its JSON value, in which the entries come in another order.
* `Desc.readText_writeText`: so is its text, if the description holds no numbers.

## Proof strategy

What is written is a spelling of the value, with every field in its place and nothing else, and
stays one in every layout (`Desc.spells_placed`); spellings are read as the values they are
spellings of. The text of a document without numbers reads back as the document
(`Document.ofText_text`).
-/

namespace ThreadCache.Wire

/-! ### The names of what is written -/

theorem Fields.encode_names : ∀ {τ σ : Type} (fields : Fields τ σ) (parts : τ),
    (fields.encode parts).map (·.1) = fields.names.map some
  | _, _, .nil, _ => rfl
  | _, _, .cons name value default rest, (x, xs) => by
    rw [encode, names, List.map_cons, List.map_cons, rest.encode_names xs]

theorem mem_keys_of_mem {entries : List (Option String × Document)} {keys : List String}
    (named : entries.map (·.1) = keys.map some) {key : String} {d : Document}
    (member : (some key, d) ∈ entries) : key ∈ keys := by
  have known := List.mem_map_of_mem (f := (·.1)) member
  rw [named] at known
  obtain ⟨_, present, same⟩ := List.mem_map.mp known
  cases same
  exact present

theorem Fields.names_nodup : ∀ {τ σ : Type} (fields : Fields τ σ), fields.Lawful →
    fields.names.Nodup
  | _, _, .nil, _ => List.nodup_nil
  | _, _, .cons name value default rest, lawful => by
    rw [Lawful] at lawful
    exact List.nodup_cons.mpr ⟨lawful.2.1, rest.names_nodup lawful.2.2⟩

theorem Fields.covers_of_names : ∀ {τ σ : Type} (fields : Fields τ σ) (parts : τ)
    (keys : List String), (∀ name ∈ fields.names, name ∈ keys) → fields.Covers parts keys
  | _, _, .nil, _, _, _ => trivial
  | _, _, .cons name _ _ rest, (_, xs), keys, named =>
    ⟨.inl (named name List.mem_cons_self),
      rest.covers_of_names xs keys fun name member => named name (List.mem_cons_of_mem _ member)⟩

theorem Fields.length_encode : ∀ {τ σ : Type} (fields : Fields τ σ) (parts : τ),
    (fields.encode parts).length = fields.length
  | _, _, .nil, _ => rfl
  | _, _, .cons name value default rest, (x, xs) => by
    rw [encode, length, List.length_cons, rest.length_encode xs]

/-- The names under which a constructor is written are distinct, and none is that of the tag. -/
theorem Variants.encode_names : ∀ {α : Type} (variants : Variants α), variants.Lawful →
    ∀ {x : α} {tag : String} {entries : List (Option String × Document)},
      variants.encode x = some (tag, entries) →
        ∃ keys : List String, entries.map (·.1) = keys.map some ∧ keys.Nodup ∧ tagKey ∉ keys
  | _, .nil, _, _, _, _, encoded => by cases encoded
  | _, .cons tag label fields inject project inject_project rest, lawful, x, key, entries,
      encoded => by
    obtain ⟨first, apart, _, others⟩ := lawful
    rw [encode] at encoded
    split at encoded
    next parts projected =>
      cases encoded
      exact ⟨fields.names, fields.encode_names parts, fields.names_nodup first, apart⟩
    next => exact rest.encode_names others encoded

/-! ### Looking up what is written -/

theorem entry?_of_mem {name : String} {d : Document} {entries : List (Option String × Document)}
    (distinct : (entries.map (·.1)).Nodup) (member : (some name, d) ∈ entries) :
    entry? name entries = some d := by
  induction entries with
  | nil => cases member
  | cons entry entries ih =>
    obtain ⟨key, other⟩ := entry
    rw [List.map_cons, List.nodup_cons] at distinct
    unfold entry?
    rcases List.mem_cons.mp member with same | later
    · cases same
      rw [if_pos rfl]
    · have apart : key ≠ some name := by
        rintro rfl
        exact distinct.1 (List.mem_map_of_mem (f := (·.1)) later)
      rw [if_neg apart]
      exact ih distinct.2 later

theorem entry?_ofJsonEntries (name : String) (entries : List (String × Json)) :
    entry? name (Document.ofJsonEntries entries) =
      (Entries.find? name entries).map Document.ofJson := by
  induction entries with
  | nil => rfl
  | cons entry entries ih =>
    obtain ⟨key, v⟩ := entry
    rw [Document.ofJsonEntries, entry?, Entries.find?, ih]
    simp only [Option.some.injEq]
    split <;> rfl

theorem entry?_of_find? {name : String} {entries : List (String × Json)} {v : Json}
    (found : Entries.find? name entries = some v) :
    entry? name (Document.ofJsonEntries entries) = some (.ofJson v) := by
  rw [entry?_ofJsonEntries, found, Option.map_some]

/-- Taking the tag away again leaves the entries of the fields. -/
theorem filter_tag {entries : List (Option String × Document)} {keys : List String}
    (named : entries.map (·.1) = keys.map some) (apart : tagKey ∉ keys) (d : Document) :
    ((some tagKey, d) :: entries).filter (fun entry => entry.1 ≠ some tagKey) = entries := by
  rw [List.filter_cons_of_neg (by simp)]
  refine List.filter_eq_self.mpr fun entry member => decide_eq_true ?_
  obtain ⟨name, _⟩ := entry
  rintro rfl
  exact apart (mem_keys_of_mem named member)

/-- Nothing but null is written as a document whose value is null. -/
theorem Desc.encode_eq_null_of_value : ∀ {α : Type} (desc : Desc α) {x : α},
    (desc.encode x).value = .null → desc.encode x = .null
  | _, .any, .null, _ => rfl
  | _, .optional _, none, _ => rfl
  | _, .optional content, some _, null => content.encode_eq_null_of_value null
  | _, .tagged _ variants _, x, null => by
    rw [Desc.encode] at null ⊢
    cases encoded : variants.encode x with
    | none => rfl
    | some written =>
      rw [encoded] at null
      cases null
  | _, .adjacent _ variants, x, null => by
    rw [Desc.encode] at null ⊢
    split at null
    next => cases null
    next => cases null
    next absent => rfl

/-! ### Writing gives a spelling -/

/-- The content that entries are, if a constructor without any has none. -/
def contentOf (apart : Bool) (entries : List (Option String × Document)) : Option Document :=
  if apart && entries.isEmpty then none else some (.object entries)

section Placed

variable (layout : Layout)

/-- An object is placed with its entries in some order, in which each is found under its name. -/
theorem exists_order {entries : List (Option String × Document)} {keys : List String}
    (named : entries.map (·.1) = keys.map some) (distinct : keys.Nodup) :
    ∃ order, order.Perm entries ∧
      layout.place (.object entries) = .object (layout.placeEntries order) ∧
      ∀ name d, (some name, d) ∈ entries →
        entry? name (layout.placeEntries order) = some (layout.place d) := by
  obtain ⟨order, perm, placed⟩ := layout.place_object named distinct
  refine ⟨order, perm, placed, fun name d member => ?_⟩
  have names : ((layout.placeEntries order).map (·.1)).Nodup := by
    rw [layout.placeEntries_names, (perm.map _).nodup_iff, named]
    exact distinct.map fun _ _ => Option.some.inj
  exact entry?_of_mem names (layout.mem_placeEntries (perm.mem_iff.mpr member))

/-- The tag is found in a placed object, and taking it away leaves the other entries. -/
theorem exists_tagged {entries : List (Option String × Document)} {keys : List String}
    (named : entries.map (·.1) = keys.map some) (distinct : keys.Nodup) (apart : tagKey ∉ keys)
    (tag : String) :
    ∃ order, order.Perm entries ∧
      Tagged (layout.place (.object ((some tagKey, .string tag) :: entries))) tag
        (.object (layout.placeEntries order)) := by
  have names : ((some tagKey, Document.string tag) :: entries).map (·.1) =
      (tagKey :: keys).map some := by
    rw [List.map_cons, named, List.map_cons]
  obtain ⟨order, perm, placed, each⟩ :=
    exists_order layout names (List.nodup_cons.mpr ⟨apart, distinct⟩)
  have found := each _ _ List.mem_cons_self
  rw [layout.place_string] at found
  have tagged := Tagged.object (layout.placeEntries order) tag found
  rw [layout.placeEntries_filter fun name => name ≠ some tagKey] at tagged
  have left := perm.filter fun entry => entry.1 ≠ some tagKey
  rw [filter_tag named apart] at left
  exact ⟨_, left, by rw [placed]; exact tagged⟩

/-- The tag and the content are found in a placed object that has nothing else. -/
theorem exists_content {entries : List (Option String × Document)} {keys : List String}
    (named : entries.map (·.1) = keys.map some) (distinct : keys.Nodup) (tag : String) :
    ∃ pair order, order.Perm entries ∧
      layout.place (.object [(some tagKey, .string tag), (some contentKey, .object entries)]) =
        .object pair ∧
      entry? tagKey pair = some (.string tag) ∧
      entry? contentKey pair = some (.object (layout.placeEntries order)) := by
  have names : [(some tagKey, Document.string tag), (some contentKey, .object entries)].map (·.1) =
      [tagKey, contentKey].map some := rfl
  obtain ⟨_, _, placed, each⟩ := exists_order layout names (by decide)
  obtain ⟨order, perm, content, _⟩ := exists_order layout named distinct
  have tag_found := each _ _ List.mem_cons_self
  have content_found := each _ _ (List.mem_cons_of_mem _ List.mem_cons_self)
  rw [layout.place_string] at tag_found
  rw [content] at content_found
  exact ⟨_, order, perm, placed, tag_found, content_found⟩

theorem Fields.spelled_of_accepts {τ σ : Type} {fields : Fields τ σ} (lawful : fields.Lawful)
    {parts : τ} {order : List (Option String × Document)} (perm : order.Perm (fields.encode parts))
    (accepts : ∀ key d, (some key, d) ∈ fields.encode parts →
      fields.Accepts parts key (layout.place d)) :
    Spelled (fields.Covers parts) (fields.Accepts parts) (fields.Itemized parts)
      (.object (layout.placeEntries order)) := by
  -- The names are those of the fields, in another order.
  have names := perm.map (·.1)
  rw [fields.encode_names parts] at names
  obtain ⟨keys, named, same⟩ := exists_order_of_perm_map names
  refine ⟨keys, (layout.placeEntries_names order).trans named,
    same.nodup_iff.mpr (fields.names_nodup lawful),
    fields.covers_of_names parts keys fun name member => same.mem_iff.mpr member, ?_⟩
  intro key d member
  obtain ⟨⟨_, listed⟩, present, placed⟩ := List.mem_map.mp member
  cases placed
  exact accepts key listed (perm.mem_iff.mp present)

mutual

/-- What a value is written as is a spelling of it, in whatever order its entries are placed. -/
theorem Desc.spells_placed : ∀ {α : Type} (desc : Desc α), desc.Lawful →
    ∀ x : α, desc.Canonical x → desc.Spells x (layout.place (desc.encode x))
  | _, .text, _, s, _ => by
    rw [Desc.Spells, Desc.encode]
    exact layout.place_string s
  | _, .flag, _, b, _ => by
    rw [Desc.Spells, Desc.encode]
    exact layout.place_ofJson (v := .bool b) trivial
  | _, .integer form, _, n, _ => by
    rw [Desc.Spells, Desc.encode]
    exact layout.place_ofJson (v := .int (form.toInt n)) trivial
  | _, .any, _, v, canonical => by
    rw [Desc.Canonical] at canonical
    rw [Desc.Spells, Desc.encode, layout.place_ofJson canonical, Document.value?_ofJson canonical]
  | _, .optional content, _, none, _ => by
    rw [Desc.Spells, Desc.encode]
    exact layout.place_ofJson (v := .null) trivial
  | _, .optional content, lawful, some x, canonical => by
    rw [Desc.Canonical] at canonical
    rw [Desc.Spells, Desc.encode]
    have notNull := mt content.encode_eq_null_of_value (lawful.2 x)
    exact ⟨layout.place_ne_null notNull, content.spells_placed lawful.1 x canonical⟩
  | _, .list item, lawful, xs, canonical => by
    rw [Desc.Canonical] at canonical
    rw [Desc.Spells, Desc.encode, layout.place_array, List.map_map]
    refine ⟨_, rfl, List.forall₂_map_right_iff.mpr (List.forall₂_same.mpr fun x member => ?_)⟩
    exact item.spells_placed lawful x (canonical x member)
  | _, .map value, lawful, m, canonical => by
    rw [Desc.Canonical] at canonical
    rw [Desc.Spells, Desc.encode]
    have placed := layout.place_map (m.map value.encode)
    rw [SortedMap.map, List.map_map, List.map_map] at placed
    refine ⟨_, placed, List.forall₂_map_right_iff.mpr ?_⟩
    refine List.forall₂_same.mpr fun entry member => ?_
    exact ⟨rfl, value.spells_placed lawful entry.2 (canonical entry member)⟩
  | _, .enumeration names nameOf, _, x, _ => by
    rw [Desc.Spells, Desc.encode]
    exact layout.place_string (nameOf x)
  | _, .record name fields build parts build_parts, lawful, x, canonical => by
    rw [Desc.Canonical] at canonical
    rw [Desc.Spells, Desc.encode]
    obtain ⟨order, perm, placed⟩ := layout.place_object (fields.encode_names (parts x))
      (fields.names_nodup lawful)
    rw [placed]
    exact Fields.spelled_of_accepts layout lawful perm
      fun key d member => fields.accepts_placed lawful (parts x) canonical key d member
  | _, .tagged name variants other, lawful, x, canonical => by
    rw [Desc.Canonical] at canonical
    rw [Desc.Spells, Desc.encode]
    cases encoded : variants.encode x with
    | none => exact absurd encoded (lawful.2 x)
    | some written =>
      obtain ⟨tag, entries⟩ := written
      obtain ⟨keys, named, distinct, apart⟩ := variants.encode_names lawful.1 encoded
      obtain ⟨order, perm, tagged⟩ := exists_tagged layout named distinct apart tag
      exact ⟨tag, _, tagged, .inl (variants.spells_placed lawful.1 false x canonical encoded perm)⟩
  | _, .adjacent name variants, lawful, x, canonical => by
    rw [Desc.Canonical] at canonical
    rw [Desc.Spells, Desc.encode]
    cases encoded : variants.encode x with
    | none => exact absurd encoded (lawful.2 x)
    | some written =>
      obtain ⟨tag, entries⟩ := written
      -- A constructor without fields is written without content.
      cases entries with
      | nil =>
        have placed := layout.place_map ⟨[(tagKey, .string tag)], List.pairwise_singleton _ _⟩
        rw [List.map_singleton, List.map_singleton, layout.place_string] at placed
        exact ⟨tag, _, placed, rfl,
          variants.spells_placed lawful.1 true x canonical encoded (.refl _)⟩
      | cons entry entries =>
        obtain ⟨keys, named, distinct, _⟩ := variants.encode_names lawful.1 encoded
        obtain ⟨pair, order, perm, placed, tag_found, content_found⟩ :=
          exists_content layout named distinct tag
        refine ⟨tag, pair, placed, tag_found, ?_⟩
        rw [content_found]
        have spells := variants.spells_placed lawful.1 true x canonical encoded perm
        -- No entry is lost in placing, so there is content still.
        cases order with
        | nil => cases perm.length_eq
        | cons _ _ => exact spells

theorem Fields.accepts_placed : ∀ {τ σ : Type} (fields : Fields τ σ), fields.Lawful →
    ∀ parts : τ, fields.Canonical parts →
      ∀ key d, (some key, d) ∈ fields.encode parts → fields.Accepts parts key (layout.place d)
  | _, _, .nil, _, _, _, _, _, member => by cases member
  | _, _, .cons name value default rest, lawful, (x, xs), canonical, key, d, member => by
    obtain ⟨first, apart, others⟩ := lawful
    rw [Fields.Canonical] at canonical
    rw [Fields.Accepts]
    rw [Fields.encode, List.mem_cons] at member
    -- The entry is of the first field, or of a later one, which has another name.
    rcases member with same | member
    · cases same
      rw [if_pos rfl]
      exact value.spells_placed first x canonical.1
    · have later : key ≠ name := by
        rintro rfl
        exact apart (mem_keys_of_mem (rest.encode_names xs) member)
      rw [if_neg later]
      exact rest.accepts_placed others xs canonical.2 key d member

/-- A constructor is written as a spelling of the value. -/
theorem Variants.spells_placed : ∀ {α : Type} (variants : Variants α), variants.Lawful →
    ∀ (apart : Bool) (x : α), variants.Canonical x → ∀ {tag : String}
      {entries order : List (Option String × Document)}, variants.encode x = some (tag, entries) →
        order.Perm entries →
          variants.Spells apart x tag (contentOf apart (layout.placeEntries order))
  | _, .nil, _, _, _, _, _, _, _, encoded, _ => by cases encoded
  | _, .cons tag label fields inject project inject_project rest, lawful, apart, x, canonical, key,
      entries, order, encoded, perm => by
    obtain ⟨first, _, _, others⟩ := lawful
    rw [Variants.Canonical] at canonical
    rw [Variants.encode] at encoded
    rw [Variants.Spells]
    cases projected : project x with
    | none =>
      rw [projected] at canonical encoded
      exact rest.spells_placed others apart x canonical encoded perm
    | some parts =>
      rw [projected] at canonical encoded
      cases encoded
      have spelled := Fields.spelled_of_accepts layout first perm
        fun key d member => fields.accepts_placed first parts canonical key d member
      refine ⟨rfl, ?_⟩
      cases apart with
      | false => exact ⟨_, rfl, spelled⟩
      | true =>
        -- Whether there is content depends on whether there are fields.
        have length : order.length = fields.length :=
          perm.length_eq.trans (fields.length_encode parts)
        rw [if_pos rfl]
        cases order with
        | nil => exact length.symm
        | cons entry order => exact ⟨by rw [← length]; exact Nat.succ_ne_zero _, spelled⟩

end

end Placed

/-- The document that a value is written as is read as the value again. -/
theorem Desc.decode_encode {α : Type} {desc : Desc α} (lawful : desc.Lawful) {x : α}
    (canonical : desc.Canonical x) (source : Source) :
    desc.decode source (desc.encode x) = .ok x :=
  desc.decode_of_spells lawful source x _ (desc.spells_placed .written lawful x canonical)

/-- The JSON value that a value is written as is read as the value again. -/
theorem Desc.read_write {α : Type} {desc : Desc α} (lawful : desc.Lawful) {x : α}
    (canonical : desc.Canonical x) : desc.read (desc.write x) = .ok x :=
  desc.decode_of_spells lawful .value x _ (desc.spells_placed .sorted lawful x canonical)

/-- The JSON value of a tagged type has the tag of the constructor under the tag's key. -/
theorem Desc.field?_write_tagged {α : Type} (name : String) {variants : Variants α} (other : α)
    (lawful : variants.Lawful) {x : α} {tag : String} {entries : List (Option String × Document)}
    (encoded : variants.encode x = some (tag, entries)) :
    ((Desc.tagged name variants other).write x).field? tagKey = some (.string tag) := by
  obtain ⟨keys, named, _, apart⟩ := variants.encode_names lawful encoded
  have written : (Desc.tagged name variants other).write x =
      .ofEntries ((tagKey, .string tag) :: Document.valueEntries entries) := by
    rw [Desc.write, Desc.encode, encoded]
    rfl
  -- No field goes by the tag's key, so nothing is written over the tag.
  have unique : ∀ entry ∈ (tagKey, Json.string tag) :: Document.valueEntries entries,
      entry.1 = tagKey → entry.2 = .string tag := by
    intro entry member same
    rcases List.mem_cons.mp member with rfl | field
    · rfl
    · have known := List.mem_map_of_mem (f := (·.1)) field
      rw [Document.valueEntries_names named, same] at known
      exact absurd known apart
  rw [written]
  exact SortedMap.get?_insertMany_of_unique List.mem_cons_self unique SortedMap.empty

/-! ### Text -/

mutual

/-- The description holds no numbers, no tags and no other JSON values. -/
def Desc.Textual : {α : Type} → Desc α → Prop
  | _, .text => True
  | _, .flag => True
  | _, .integer _ => False
  | _, .any => False
  | _, .optional content => content.Textual
  | _, .list item => item.Textual
  | _, .map value => value.Textual
  | _, .enumeration _ _ => True
  | _, .record _ fields _ _ _ => fields.Textual
  | _, .tagged _ _ _ => False
  | _, .adjacent _ _ => False

def Fields.Textual : {τ σ : Type} → Fields τ σ → Prop
  | _, _, .nil => True
  | _, _, .cons _ value _ rest => value.Textual ∧ rest.Textual

end

mutual

theorem Desc.legible_encode : ∀ {α : Type} (desc : Desc α), desc.Textual →
    ∀ x : α, (desc.encode x).Legible
  | _, .text, _, _ => trivial
  | _, .flag, _, _ => trivial
  | _, .integer _, textual, _ => textual.elim
  | _, .any, textual, _ => textual.elim
  | _, .optional _, _, none => trivial
  | _, .optional content, textual, some x => content.legible_encode textual x
  | _, .list item, textual, xs => by
    rw [Desc.encode, Document.Legible, Document.legibleItems_iff]
    intro d written
    obtain ⟨x, _, rfl⟩ := List.mem_map.mp written
    exact item.legible_encode textual x
  | _, .map value, textual, m => by
    rw [Desc.encode, Document.Legible, Document.legibleEntries_iff]
    intro entry written
    obtain ⟨held, _, rfl⟩ := List.mem_map.mp written
    exact ⟨rfl, value.legible_encode textual held.2⟩
  | _, .enumeration _ _, _, _ => trivial
  | _, .record _ fields _ parts _, textual, x => by
    rw [Desc.encode, Document.Legible]
    exact fields.legible_encode textual (parts x)
  | _, .tagged _ _ _, textual, _ => textual.elim
  | _, .adjacent _ _, textual, _ => textual.elim

theorem Fields.legible_encode : ∀ {τ σ : Type} (fields : Fields τ σ), fields.Textual →
    ∀ parts : τ, Document.LegibleEntries (fields.encode parts)
  | _, _, .nil, _, _ => trivial
  | _, _, .cons _ value _ rest, textual, (x, xs) =>
    ⟨rfl, value.legible_encode textual.1 x, rest.legible_encode textual.2 xs⟩

end

mutual

theorem Desc.plain_of_textual : ∀ {α : Type} (desc : Desc α), desc.Textual → desc.plain = true
  | _, .text, _ => rfl
  | _, .flag, _ => rfl
  | _, .integer _, textual => textual.elim
  | _, .any, textual => textual.elim
  | _, .optional content, textual => content.plain_of_textual textual
  | _, .list item, textual => item.plain_of_textual textual
  | _, .map value, textual => value.plain_of_textual textual
  | _, .enumeration _ _, _ => rfl
  | _, .record _ fields _ _ _, textual => fields.plain_of_textual textual
  | _, .tagged _ _ _, textual => textual.elim
  | _, .adjacent _ _, textual => textual.elim

theorem Fields.plain_of_textual : ∀ {τ σ : Type} (fields : Fields τ σ), fields.Textual →
    fields.plain = true
  | _, _, .nil, _ => rfl
  | _, _, .cons _ value _ rest, textual => by
    rw [Fields.plain, value.plain_of_textual textual.1, rest.plain_of_textual textual.2]
    rfl

end

/-- The text that a value is written as is read as the value again. -/
theorem Desc.readText_writeText {α : Type} {desc : Desc α} (lawful : desc.Lawful)
    (textual : desc.Textual) (x : α) : desc.readText (desc.writeText x) = .ok x := by
  have canonical := desc.canonical_of_plain (desc.plain_of_textual textual) x
  -- What was read is the document that was written, with nothing after it.
  rw [readText, writeText, Document.ofText_text (desc.legible_encode textual x)]
  simp only [decode_encode lawful canonical]
  rfl

end ThreadCache.Wire
