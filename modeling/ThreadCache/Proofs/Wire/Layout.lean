import ThreadCache.Proofs.Json.Value

/-!
# Layouts of a document

What is written lists the fields of a record in the order of their declaration. The JSON value that
it denotes lists them in the order of their names, at every depth. A layout stands for either order,
so that what is said of all layouts holds for the text of a value and for its JSON value alike.

## Main definitions

* `Layout`: an order for the entries of every object in a document.
* `Layout.written`: the entries as they are listed.
* `Layout.sorted`: the entries by their names, as the JSON value of the document has them.
-/

namespace ThreadCache

/-- A way to list the entries of objects anew, which leaves everything else as it is. -/
structure Layout where
  place : Document → Document
  place_ofJson : ∀ {v : Json}, v.Canonical → place (.ofJson v) = .ofJson v
  place_array : ∀ items, place (.array items) = .array (items.map place)
  /-- Entries with names of their own may come in any order. -/
  place_object : ∀ {entries : List (Option String × Document)} {keys : List String},
    entries.map (·.1) = keys.map some → keys.Nodup →
      ∃ order : List (Option String × Document), order.Perm entries ∧
        place (.object entries) = .object (order.map fun entry => (entry.1, place entry.2))
  /-- Entries that stand in the order of their names stay so. -/
  place_map : ∀ m : SortedMap Document,
    place (.object (m.entries.map fun entry => (some entry.1, entry.2))) =
      .object (m.entries.map fun entry => (some entry.1, place entry.2))
  place_ne_null : ∀ {d : Document}, d.value ≠ .null → place d ≠ .null

/-- A rearrangement of images is the image of a rearrangement. -/
theorem exists_order_of_perm_map {α β : Type} {f : α → β} {images : List β} {xs : List α}
    (perm : images.Perm (xs.map f)) :
    ∃ order : List α, images = order.map f ∧ order.Perm xs := by
  have both := congrFun (congrFun (List.eq_map_comp_perm f) images) xs
  exact both.mpr perm

namespace Layout

/-! ### The entries of a placed object -/

def placeEntries (layout : Layout) (entries : List (Option String × Document)) :
    List (Option String × Document) :=
  entries.map fun entry => (entry.1, layout.place entry.2)

variable (layout : Layout)

theorem placeEntries_names (entries : List (Option String × Document)) :
    (layout.placeEntries entries).map (·.1) = entries.map (·.1) := by
  rw [placeEntries, List.map_map]
  rfl

theorem mem_placeEntries {entries : List (Option String × Document)} {name : Option String}
    {d : Document} (member : (name, d) ∈ entries) :
    (name, layout.place d) ∈ layout.placeEntries entries :=
  List.mem_map.mpr ⟨_, member, rfl⟩

theorem placeEntries_filter (keep : Option String → Bool)
    (entries : List (Option String × Document)) :
    (layout.placeEntries entries).filter (fun entry => keep entry.1) =
      layout.placeEntries (entries.filter fun entry => keep entry.1) := by
  rw [placeEntries, List.filter_map]
  rfl

theorem place_string (s : String) : layout.place (.string s) = .string s :=
  layout.place_ofJson (v := .string s) trivial

/-! ### As written -/

/-- Every entry stays where it is. -/
def written : Layout where
  place d := d
  place_ofJson _ := rfl
  place_array items := by rw [List.map_id']
  place_object _ _ := ⟨_, .refl _, by rw [List.map_id']⟩
  place_map _ := rfl
  place_ne_null := by
    rintro _ denotes rfl
    exact denotes rfl

/-! ### In the order of the names -/

theorem ofJson_value_object {entries : List (Option String × Document)} {keys : List String}
    (named : entries.map (·.1) = keys.map some) (distinct : keys.Nodup) :
    ∃ order : List (Option String × Document), order.Perm entries ∧
      Document.ofJson (Document.object entries).value =
        .object (order.map fun entry => (entry.1, .ofJson entry.2.value)) := by
  rw [← Document.valueEntries_names named] at distinct
  have perm := SortedMap.entries_ofList_perm distinct
  rw [Document.valueEntries_eq_map] at perm
  obtain ⟨order, sorted, perm⟩ := exists_order_of_perm_map perm
  refine ⟨order, perm, ?_⟩
  rw [Document.value, Json.ofEntries, Document.ofJson, Document.valueEntries_eq_map, sorted,
    Document.ofJsonEntries_eq_map, List.map_map]
  refine congrArg Document.object (List.map_congr_left fun entry member => ?_)
  -- Every entry has a name, so the one it gets is its own.
  have known : entry.1 ∈ keys.map some := by
    rw [← named]
    exact List.mem_map_of_mem (perm.mem_iff.mp member)
  obtain ⟨key, _, name⟩ := List.mem_map.mp known
  simp only [Function.comp_apply, ← name, Option.getD_some]

theorem ofJson_value_map (m : SortedMap Document) :
    Document.ofJson (Document.object (m.entries.map fun entry => (some entry.1, entry.2))).value =
      .object (m.entries.map fun entry => (some entry.1, .ofJson entry.2.value)) := by
  have values : Document.valueEntries (m.entries.map fun entry => (some entry.1, entry.2)) =
      (m.map Document.value).entries := by
    rw [Document.valueEntries_eq_map, List.map_map]
    rfl
  rw [Document.value, Json.ofEntries, values, SortedMap.ofList_entries, Document.ofJson,
    Document.ofJsonEntries_eq_map, SortedMap.map, List.map_map]
  rfl

theorem ofJson_eq_null {v : Json} (null : Document.ofJson v = .null) : v = .null := by
  cases v with
  | null => rfl
  | _ => cases null

/-- The document of the JSON value that a document denotes. -/
def sorted : Layout where
  place d := .ofJson d.value
  place_ofJson canonical := by rw [Document.value_ofJson _ canonical]
  place_array items := by
    rw [Document.value, Document.ofJson, Document.valueItems_eq_map, Document.ofJsonItems_eq_map,
      List.map_map]
    rfl
  place_object := ofJson_value_object
  place_map := ofJson_value_map
  place_ne_null denotes null := denotes (ofJson_eq_null null)

end Layout

end ThreadCache
