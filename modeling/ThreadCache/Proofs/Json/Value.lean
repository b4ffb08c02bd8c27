import Mathlib.Data.List.Nodup
import Mathlib.Data.List.Perm.Basic
import ThreadCache.Json.Document

/-!
# Documents and their values

## Main results

* `Document.value_ofJson`: a canonical value is the value of its document.
* `Document.canonical_value`: the value of a document is canonical, in whatever order the document
  lists its entries.
* `Json.ofText?_eq_some_iff`: which texts denote a value, and which value.
* `SortedMap.entries_ofList_perm`: entries with names of their own are put in order, and none is
  lost.

## Proof strategy

By recursion on values and documents. What an object holds is put in order by a map, whose entries
are among those that went into it.
-/

namespace ThreadCache

/-! ### Entries in order -/

namespace SortedMap

variable {α : Type}

theorem mem_or_mem_of_mem_insertMany {entries : List (String × α)} {entry : String × α} :
    ∀ {m : SortedMap α}, entry ∈ (m.insertMany entries).entries →
      entry ∈ m.entries ∨ entry ∈ entries := by
  induction entries with
  | nil => exact fun member => .inl member
  | cons first entries ih =>
    intro m member
    rcases ih member with earlier | later
    · rcases Entries.mem_insert earlier with rfl | earlier
      · exact .inr List.mem_cons_self
      · exact .inl earlier
    · exact .inr (List.mem_cons_of_mem _ later)

theorem mem_of_mem_ofList {entries : List (String × α)} {entry : String × α}
    (member : entry ∈ (ofList entries).entries) : entry ∈ entries :=
  (mem_or_mem_of_mem_insertMany member).resolve_left List.not_mem_nil

theorem keys_nodup (m : SortedMap α) : m.keys.Nodup := by
  have ascending : m.keys.Pairwise (· < ·) := List.pairwise_map.mpr m.ascending
  refine ascending.imp ?_
  rintro a b before rfl
  exact String.lt_irrefl a before

/-- Entries with names of their own are put in order, and none is lost. -/
theorem entries_ofList_perm {entries : List (String × α)}
    (distinct : (entries.map (·.1)).Nodup) : (ofList entries).entries.Perm entries := by
  have sorted := (ofList entries).keys_nodup
  refine (List.perm_ext_iff_of_nodup (sorted.of_map _) (distinct.of_map _)).mpr ?_
  rintro ⟨key, v⟩
  constructor
  · exact mem_of_mem_ofList
  · intro member
    -- An entry of the same name is the same entry.
    have unique : ∀ e ∈ entries, e.1 = key → e.2 = v := by
      intro e other same
      have both := List.inj_on_of_nodup_map distinct other member same
      rw [both]
    exact get?_eq_some_iff.mp (get?_insertMany_of_unique member unique empty)

end SortedMap

/-! ### Canonical values -/

namespace Json

theorem canonicalItems_iff {items : List Json} :
    CanonicalItems items ↔ ∀ item ∈ items, item.Canonical := by
  induction items with
  | nil => simp [CanonicalItems]
  | cons item items ih => simp [CanonicalItems, ih]

theorem canonicalEntries_iff {entries : List (String × Json)} :
    CanonicalEntries entries ↔ ∀ entry ∈ entries, entry.2.Canonical := by
  induction entries with
  | nil => simp [CanonicalEntries]
  | cons entry entries ih => simp [CanonicalEntries, ih]

end Json

namespace Document

/-! ### From a value to its document and back -/

theorem ofJsonItems_eq_map (items : List Json) : ofJsonItems items = items.map ofJson := by
  induction items with
  | nil => rfl
  | cons item items ih => rw [ofJsonItems, ih, List.map_cons]

theorem ofJsonEntries_eq_map (entries : List (String × Json)) :
    ofJsonEntries entries = entries.map fun entry => (some entry.1, ofJson entry.2) := by
  induction entries with
  | nil => rfl
  | cons entry entries ih => rw [ofJsonEntries, ih, List.map_cons]

/-- Taking the entries of a name away before or after makes no difference. -/
theorem filter_ofJsonEntries (name : String) (entries : List (String × Json)) :
    (ofJsonEntries entries).filter (fun entry => entry.1 ≠ some name) =
      ofJsonEntries (Entries.erase name entries) := by
  rw [ofJsonEntries_eq_map, ofJsonEntries_eq_map, Entries.erase, List.filter_map]
  simp only [Function.comp_def, ne_eq, Option.some.injEq]

theorem valueItems_eq_map (items : List Document) : valueItems items = items.map value := by
  induction items with
  | nil => rfl
  | cons item items ih => rw [valueItems, ih, List.map_cons]

theorem valueEntries_eq_map (entries : List (Option String × Document)) :
    valueEntries entries = entries.map fun entry => (entry.1.getD "", entry.2.value) := by
  induction entries with
  | nil => rfl
  | cons entry entries ih => rw [valueEntries, ih, List.map_cons]

theorem valueEntries_names {entries : List (Option String × Document)} {keys : List String}
    (named : entries.map (·.1) = keys.map some) : (valueEntries entries).map (·.1) = keys := by
  have names := congrArg (List.map fun name => Option.getD name "") named
  rw [List.map_map, List.map_map] at names
  rw [valueEntries_eq_map, List.map_map]
  exact names.trans (List.map_id' keys)

mutual

theorem sound_ofJson : ∀ v : Json, (ofJson v).sound = true
  | .null => rfl
  | .bool _ => rfl
  | .int _ => rfl
  | .double _ => rfl
  | .string _ => rfl
  | .array items => soundItems_ofJsonItems items
  | .object entries => soundEntries_ofJsonEntries entries

theorem soundItems_ofJsonItems : ∀ items : List Json, soundItems (ofJsonItems items) = true
  | [] => rfl
  | item :: items => by
    rw [ofJsonItems, soundItems, sound_ofJson item, soundItems_ofJsonItems items]
    rfl

theorem soundEntries_ofJsonEntries : ∀ entries : List (String × Json),
    soundEntries (ofJsonEntries entries) = true
  | [] => rfl
  | (name, value) :: entries => by
    rw [ofJsonEntries, soundEntries, sound_ofJson value, soundEntries_ofJsonEntries entries]
    rfl

end

mutual

theorem intact_ofJson : ∀ v : Json, (ofJson v).intact = true
  | .null => rfl
  | .bool _ => rfl
  | .int _ => rfl
  | .double _ => rfl
  | .string _ => rfl
  | .array items => intactItems_ofJsonItems items
  | .object entries => intactEntries_ofJsonEntries entries

theorem intactItems_ofJsonItems : ∀ items : List Json, intactItems (ofJsonItems items) = true
  | [] => rfl
  | item :: items => by
    rw [ofJsonItems, intactItems, intact_ofJson item, intactItems_ofJsonItems items]
    rfl

theorem intactEntries_ofJsonEntries : ∀ entries : List (String × Json),
    intactEntries (ofJsonEntries entries) = true
  | [] => rfl
  | (name, value) :: entries => by
    rw [ofJsonEntries, intactEntries, intact_ofJson value, intactEntries_ofJsonEntries entries]
    rfl

end

mutual

/-- A canonical value is the value of its document. -/
theorem value_ofJson : ∀ v : Json, v.Canonical → (ofJson v).value = v
  | .null, _ => rfl
  | .bool _, _ => rfl
  | .int _, _ => rfl
  | .double _, _ => rfl
  | .string _, _ => rfl
  | .array items, canonical => by
    rw [Json.Canonical] at canonical
    rw [ofJson, value, valueItems_ofJsonItems items canonical]
  | .object entries, canonical => by
    rw [Json.Canonical] at canonical
    -- Entries in order go into a map and come out in the same order.
    have kept := SortedMap.ofList_entries ⟨entries, canonical.1⟩
    rw [ofJson, value, valueEntries_ofJsonEntries entries canonical.2, Json.ofEntries, kept]

theorem valueItems_ofJsonItems : ∀ items : List Json, Json.CanonicalItems items →
    valueItems (ofJsonItems items) = items
  | [], _ => rfl
  | item :: items, canonical => by
    rw [Json.CanonicalItems] at canonical
    rw [ofJsonItems, valueItems, value_ofJson item canonical.1,
      valueItems_ofJsonItems items canonical.2]

theorem valueEntries_ofJsonEntries : ∀ entries : List (String × Json),
    Json.CanonicalEntries entries → valueEntries (ofJsonEntries entries) = entries
  | [], _ => rfl
  | (name, v) :: entries, canonical => by
    rw [Json.CanonicalEntries] at canonical
    rw [ofJsonEntries, valueEntries, value_ofJson v canonical.1,
      valueEntries_ofJsonEntries entries canonical.2, Option.getD_some]

end

theorem value?_ofJson {v : Json} (canonical : v.Canonical) : (ofJson v).value? = some v := by
  rw [value?, if_pos (sound_ofJson v), value_ofJson v canonical]

/-! ### The value of a document -/

mutual

/-- The value of a document is canonical. -/
theorem canonical_value : ∀ d : Document, d.value.Canonical
  | .null => trivial
  | .bool _ => trivial
  | .int _ => trivial
  | .double _ => trivial
  | .string _ => trivial
  | .garbled => trivial
  | .broken => trivial
  | .array items => by
    rw [value, Json.Canonical, Json.canonicalItems_iff]
    exact canonical_valueItems items
  | .object entries => by
    rw [value, Json.ofEntries, Json.Canonical, Json.canonicalEntries_iff]
    refine ⟨SortedMap.ascending _, fun entry member => ?_⟩
    exact canonical_valueEntries entries entry (SortedMap.mem_of_mem_ofList member)

theorem canonical_valueItems : ∀ items : List Document, ∀ v ∈ valueItems items, v.Canonical
  | [] => fun _ member => nomatch member
  | item :: items => by
    rw [valueItems, List.forall_mem_cons]
    exact ⟨canonical_value item, canonical_valueItems items⟩

theorem canonical_valueEntries : ∀ entries : List (Option String × Document),
    ∀ entry ∈ valueEntries entries, entry.2.Canonical
  | [] => fun _ member => nomatch member
  | (name, d) :: entries => by
    rw [valueEntries, List.forall_mem_cons]
    exact ⟨canonical_value d, canonical_valueEntries entries⟩

end

theorem canonical_of_value? {d : Document} {v : Json} (denotes : d.value? = some v) :
    v.Canonical := by
  rw [value?, Option.ite_none_right_eq_some, Option.some.injEq] at denotes
  obtain ⟨_, rfl⟩ := denotes
  exact canonical_value d

end Document

/-! ### Documents that are accepted -/

namespace Document

/--
Every part of the document denotes a value, and its containers are nested no deeper than there is
room for.
-/
def Accepted (room : Nat) (d : Document) : Prop := d.sound = true ∧ d.depth ≤ room

instance (room : Nat) (d : Document) : Decidable (d.Accepted room) :=
  inferInstanceAs (Decidable (_ ∧ _))

end Document

namespace Json

/-- A text denotes the value of its document, if nothing comes after it and it is accepted. -/
theorem ofText?_eq_some_iff {text : String} {v : Json} :
    ofText? text = some v ↔ ∃ d, Document.ofText text = ⟨d, true⟩ ∧
      d.Accepted nestingLimit ∧ d.value = v := by
  rw [ofText?]
  obtain ⟨d, whole⟩ := Document.ofText text
  simp only [Option.ite_none_right_eq_some, Bool.and_eq_true, decide_eq_true_eq, Document.value?,
    Option.some.injEq, Document.Reading.mk.injEq, Document.Accepted]
  constructor
  · rintro ⟨⟨rfl, depth⟩, sound, rfl⟩
    exact ⟨d, ⟨rfl, rfl⟩, ⟨sound, depth⟩, rfl⟩
  · rintro ⟨_, ⟨rfl, rfl⟩, ⟨sound, depth⟩, rfl⟩
    exact ⟨⟨rfl, depth⟩, sound, rfl⟩

/-- Whatever JSON value comes from a text is canonical. -/
theorem canonical_of_ofText? {text : String} {v : Json} (read : ofText? text = some v) :
    v.Canonical := by
  obtain ⟨d, _, _, rfl⟩ := ofText?_eq_some_iff.mp read
  exact Document.canonical_value d

end Json

end ThreadCache
