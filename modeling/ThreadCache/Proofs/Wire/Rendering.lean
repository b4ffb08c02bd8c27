import ThreadCache.Proofs.Wire.Types

/-!
# Renderings

Other programs write the same values in other ways: they leave out what is at its default, add
entries of their own, or write a record as the array of its fields.

## Main result

`read_of_renders`: what a value is written as is a rendering of it, and every rendering is
read as the value.

## Proof strategy

A rendering is made by choosing at each record; a spelling says which documents will do for a value.
So it is to be shown that each choice gives a document that will do (`Desc.spells_of_renders`). The
entries of an object go into a map. Under the known names the map holds those that were kept and
nothing else (`Extended.exists_map`), which is all that reading the object depends on.
-/

namespace ThreadCache.Wire

/-! ### What a rendering is -/

/-- An object of entries that are kept and of others, which go by no known name. -/
def Extended (known : List String) (kept : List (String × Json) → Prop) (v : Json) : Prop :=
  ∃ entries others, kept entries ∧ (∀ entry ∈ others, entry.1 ∉ known) ∧
    v = .ofEntries (entries ++ others)

/-- The entries of a constructor whose fields stand apart from its tag. -/
def Enclosed (tag : String) (length : Nat) (content : Json → Prop)
    (entries : List (String × Json)) : Prop :=
  if length = 0 then entries = [(tagKey, .string tag)]
  else ∃ v, content v ∧ entries = [(tagKey, .string tag), (contentKey, v)]

mutual

/--
The JSON value is what the value is written as, but for choices that are made at each record in it:
an object may lack fields that hold their defaults and have other entries besides, or there is an
array instead.
-/
def Desc.Renders : {α : Type} → Desc α → α → Json → Prop
  | _, .text, s, v => v = .string s
  | _, .flag, b, v => v = .bool b
  | _, .integer form, n, v => v = .int (form.toInt n)
  | _, .any, x, v => v = x
  | _, .optional _, none, v => v = .null
  | _, .optional content, some x, v => content.Renders x v
  | _, .list item, xs, v => ∃ items, v = .array items ∧ List.Forall₂ item.Renders xs items
  | _, .map value, m, v =>
    ∃ entries, v = .object entries ∧
      List.Forall₂ (fun entry written => written.1 = entry.1 ∧ value.Renders entry.2 written.2)
        m.entries entries
  | _, .enumeration _ nameOf, x, v => v = .string (nameOf x)
  | _, .record _ fields _ parts _, x, v =>
    Extended fields.names (fields.Kept (parts x)) v ∨
      ∃ items, fields.Listed (parts x) items ∧ v = .array items
  | _, .tagged _ variants _, x, v => variants.Renders false x v
  | _, .adjacent _ variants, x, v => variants.Renders true x v

/-- The entries of the fields, in their order, some of those at their defaults left out. -/
def Fields.Kept : {τ σ : Type} → Fields τ σ → τ → List (String × Json) → Prop
  | _, _, .nil, _, entries => entries = []
  | _, _, .cons name value default rest, (x, xs), entries =>
    (default = some x ∧ rest.Kept xs entries) ∨
      ∃ v others, entries = (name, v) :: others ∧ value.Renders x v ∧ rest.Kept xs others

/-- The fields in their order, some of those at the end left off that hold their defaults. -/
def Fields.Listed : {τ σ : Type} → Fields τ σ → τ → List Json → Prop
  | _, _, .nil, _, items => items = []
  | _, _, .cons _ _ default rest, (x, xs), [] => default = some x ∧ rest.Listed xs []
  | _, _, .cons _ value _ rest, (x, xs), v :: items => value.Renders x v ∧ rest.Listed xs items

/-- The tag of a value's constructor, with its fields beside it or in an object of their own. -/
def Variants.Renders : {α : Type} → Variants α → Bool → α → Json → Prop
  | _, .nil, _, _, _ => False
  | _, .cons tag _ fields _ project _ rest, apart, x, v =>
    match project x with
    | none => rest.Renders apart x v
    | some parts =>
      if apart then
        Extended [tagKey, contentKey]
          (Enclosed tag fields.length (Extended fields.names (fields.Kept parts))) v
      else
        Extended (tagKey :: fields.names)
            (fun entries => ∃ kept, fields.Kept parts kept ∧
              entries = (tagKey, .string tag) :: kept) v ∨
          ∃ items, fields.Listed parts items ∧ v = .array (.string tag :: items)

end

/-! ### What is written is a rendering -/

theorem Extended.of_kept {known : List String} {kept : List (String × Json) → Prop}
    {entries : List (String × Json)} (keeps : kept entries) :
    Extended known kept (.ofEntries entries) :=
  ⟨entries, [], keeps, nofun, by rw [List.append_nil]⟩

mutual

theorem Desc.renders_write : ∀ {α : Type} (desc : Desc α), desc.Lawful →
    ∀ x : α, desc.Canonical x → desc.Renders x (desc.write x)
  | _, .text, _, _, _ => rfl
  | _, .flag, _, _, _ => rfl
  | _, .integer _, _, _, _ => rfl
  | _, .any, _, v, canonical => by
    rw [Desc.Renders, Desc.write, Desc.encode, Document.value_ofJson v canonical]
  | _, .optional _, _, none, _ => rfl
  | _, .optional content, lawful, some x, canonical => by
    rw [Desc.Canonical] at canonical
    exact content.renders_write lawful.1 x canonical
  | _, .list item, lawful, xs, canonical => by
    rw [Desc.Canonical] at canonical
    rw [Desc.Renders, Desc.write, Desc.encode, Document.value, Document.valueItems_eq_map,
      List.map_map]
    refine ⟨_, rfl, List.forall₂_map_right_iff.mpr (List.forall₂_same.mpr fun x member => ?_)⟩
    exact item.renders_write lawful x (canonical x member)
  | _, .map value, lawful, m, canonical => by
    rw [Desc.Canonical] at canonical
    -- The entries are in order already.
    have written : (Desc.map value).write m = .object (m.map value.write).entries := by
      rw [Desc.write, Desc.encode, Document.value, Document.valueEntries_eq_map, List.map_map,
        Json.ofEntries]
      exact congrArg (fun m => Json.object (SortedMap.entries m))
        (SortedMap.ofList_entries (m.map value.write))
    rw [Desc.Renders, written]
    refine ⟨_, rfl, List.forall₂_map_right_iff.mpr ?_⟩
    refine List.forall₂_same.mpr fun entry member => ?_
    exact ⟨rfl, value.renders_write lawful entry.2 (canonical entry member)⟩
  | _, .enumeration _ _, _, _, _ => rfl
  | _, .record _ fields _ parts _, lawful, x, canonical => by
    rw [Desc.Canonical] at canonical
    rw [Desc.Renders]
    exact .inl (.of_kept (fields.kept_encode lawful (parts x) canonical))
  | _, .tagged _ variants _, lawful, x, canonical => by
    rw [Desc.Canonical] at canonical
    rw [Desc.Renders, Desc.write, Desc.encode]
    cases encoded : variants.encode x with
    | none => exact absurd encoded (lawful.2 x)
    | some written => exact (variants.renders_encode lawful.1 x canonical encoded).1
  | _, .adjacent _ variants, lawful, x, canonical => by
    rw [Desc.Canonical] at canonical
    rw [Desc.Renders, Desc.write, Desc.encode]
    cases encoded : variants.encode x with
    | none => exact absurd encoded (lawful.2 x)
    | some written =>
      obtain ⟨tag, entries⟩ := written
      obtain ⟨_, without, within⟩ := variants.renders_encode lawful.1 x canonical encoded
      cases entries with
      | nil => exact without rfl
      | cons => exact within (List.cons_ne_nil _ _)

theorem Fields.kept_encode : ∀ {τ σ : Type} (fields : Fields τ σ), fields.Lawful →
    ∀ parts : τ, fields.Canonical parts →
      fields.Kept parts (Document.valueEntries (fields.encode parts))
  | _, _, .nil, _, _, _ => rfl
  | _, _, .cons name value default rest, lawful, (x, xs), canonical => by
    rw [Fields.Canonical] at canonical
    rw [Fields.Kept]
    exact .inr ⟨_, _, rfl, value.renders_write lawful.1 x canonical.1,
      rest.kept_encode lawful.2.2 xs canonical.2⟩

/-- A constructor is written as a rendering of the value, beside its tag or apart from it. -/
theorem Variants.renders_encode : ∀ {α : Type} (variants : Variants α), variants.Lawful →
    ∀ (x : α), variants.Canonical x → ∀ {tag : String}
      {entries : List (Option String × Document)}, variants.encode x = some (tag, entries) →
        variants.Renders false x
          (Document.object ((some tagKey, .string tag) :: entries)).value ∧
        (entries = [] →
          variants.Renders true x (Document.object [(some tagKey, .string tag)]).value) ∧
        (entries ≠ [] → variants.Renders true x
          (Document.object [(some tagKey, .string tag), (some contentKey, .object entries)]).value)
  | _, .nil, _, _, _, _, _, encoded => by cases encoded
  | _, .cons tag label fields inject project inject_project rest, lawful, x, canonical, key,
      entries, encoded => by
    obtain ⟨first, _, _, others⟩ := lawful
    rw [Variants.Canonical] at canonical
    rw [Variants.encode] at encoded
    simp only [Variants.Renders]
    cases projected : project x with
    | none =>
      rw [projected] at canonical encoded
      exact rest.renders_encode others x canonical encoded
    | some parts =>
      rw [projected] at canonical encoded
      cases encoded
      have kept := fields.kept_encode first parts canonical
      -- Whether there is content depends on whether there are fields.
      have length := fields.length_encode parts
      refine ⟨.inl (.of_kept ⟨_, kept, rfl⟩), fun without => .of_kept ?_,
        fun within => .of_kept ?_⟩
      · rw [without] at length
        rw [Enclosed, ← length, if_pos List.length_nil]
        rfl
      · rw [Enclosed, ← length, if_neg (mt List.length_eq_zero_iff.mp within)]
        exact ⟨_, .of_kept kept, rfl⟩

end

/-! ### What is not null -/

theorem Variants.not_renders_null : ∀ {α : Type} (variants : Variants α) (apart : Bool) (x : α),
    ¬ variants.Renders apart x .null
  | _, .nil, _, _, renders => renders
  | _, .cons tag label fields inject project inject_project rest, apart, x, renders => by
    rw [Variants.Renders] at renders
    split at renders
    next => exact rest.not_renders_null apart x renders
    next =>
      split at renders
      next =>
        obtain ⟨_, _, _, _, object⟩ := renders
        cases object
      next =>
        obtain ⟨_, _, _, _, object⟩ | ⟨_, _, array⟩ := renders
        · cases object
        · cases array

/-- Null renders nothing but what is written as null. -/
theorem Desc.encode_eq_null_of_renders : ∀ {α : Type} (desc : Desc α) {x : α},
    desc.Renders x .null → desc.encode x = .null
  | _, .text, _, renders => by cases renders
  | _, .flag, _, renders => by cases renders
  | _, .integer _, _, renders => by cases renders
  | _, .any, _, renders => by cases renders; rfl
  | _, .optional _, none, _ => rfl
  | _, .optional content, some _, renders => content.encode_eq_null_of_renders renders
  | _, .list _, _, renders => by
    obtain ⟨_, array, _⟩ := renders
    cases array
  | _, .map _, _, renders => by
    obtain ⟨_, object, _⟩ := renders
    cases object
  | _, .enumeration _ _, _, renders => by cases renders
  | _, .record _ _ _ _ _, _, renders => by
    obtain ⟨_, _, _, _, object⟩ | ⟨_, _, array⟩ := renders
    · cases object
    · cases array
  | _, .tagged _ variants _, x, renders => absurd renders (variants.not_renders_null false x)
  | _, .adjacent _ variants, x, renders => absurd renders (variants.not_renders_null true x)

/-! ### Extended objects -/

/-- Under the known names the map of an object holds what was kept and nothing else. -/
theorem Extended.exists_map {known : List String} {kept : List (String × Json) → Prop} {v : Json}
    (extended : Extended known kept v) (distinct : known.Nodup)
    (names : ∀ entries, kept entries → (entries.map (·.1)).Sublist known) :
    ∃ entries, kept entries ∧ ∃ m : SortedMap Json, v = .object m.entries ∧
      ∀ key ∈ known, ∀ w, m.get? key = some w ↔ (key, w) ∈ entries := by
  obtain ⟨entries, others, keeps, unknown, rfl⟩ := extended
  refine ⟨entries, keeps, .ofList (entries ++ others), rfl, fun key here w => ⟨fun found => ?_,
    fun member => ?_⟩⟩
  · have member := SortedMap.mem_of_mem_ofList (SortedMap.get?_eq_some_iff.mp found)
    rcases List.mem_append.mp member with first | other
    · exact first
    · exact absurd here (unknown _ other)
  · refine SortedMap.get?_insertMany_of_unique (List.mem_append_left _ member) ?_ _
    intro entry present same
    rcases List.mem_append.mp present with first | other
    · have both := List.inj_on_of_nodup_map ((names _ keeps).nodup distinct) first member same
      rw [both]
    · exact absurd (same ▸ here) (unknown _ other)

theorem Enclosed.names {tag : String} {length : Nat} {content : Json → Prop}
    {entries : List (String × Json)} (enclosed : Enclosed tag length content entries) :
    (entries.map (·.1)).Sublist [tagKey, contentKey] := by
  rw [Enclosed] at enclosed
  split at enclosed
  next =>
    subst enclosed
    exact .cons_cons _ (List.nil_sublist _)
  next =>
    obtain ⟨_, _, rfl⟩ := enclosed
    exact .refl _

namespace Fields

variable {τ σ : Type}

theorem names_of_kept : ∀ {τ σ : Type} (fields : Fields τ σ) (parts : τ)
    (kept : List (String × Json)), fields.Kept parts kept →
      (kept.map (·.1)).Sublist fields.names
  | _, _, .nil, _, _, keeps => by
    rw [Kept] at keeps
    rw [keeps]
    exact .slnil
  | _, _, .cons name value default rest, (x, xs), kept, keeps => by
    rw [Kept] at keeps
    rw [names]
    rcases keeps with ⟨_, keeps⟩ | ⟨v, others, rfl, _, keeps⟩
    · exact (rest.names_of_kept xs kept keeps).cons name
    · exact (rest.names_of_kept xs others keeps).cons_cons name

/-- What was left out has a default. -/
theorem covers_of_kept : ∀ {τ σ : Type} (fields : Fields τ σ) (parts : τ)
    (kept : List (String × Json)) (keys : List String), fields.Kept parts kept →
      (∀ entry ∈ kept, entry.1 ∈ keys) → fields.Covers parts keys
  | _, _, .nil, _, _, _, _, _ => trivial
  | _, _, .cons name value default rest, (x, xs), kept, keys, keeps, present => by
    rw [Kept] at keeps
    rcases keeps with ⟨atDefault, keeps⟩ | ⟨v, others, rfl, _, keeps⟩
    · exact ⟨.inr atDefault, rest.covers_of_kept xs kept keys keeps present⟩
    · rw [List.forall_mem_cons] at present
      exact ⟨.inl present.1, rest.covers_of_kept xs others keys keeps present.2⟩

theorem accepts_of_unknown : ∀ {τ σ : Type} (fields : Fields τ σ) (parts : τ) {key : String}
    {d : Document}, key ∉ fields.names → d.intact = true → fields.Accepts parts key d
  | _, _, .nil, _, _, _, _, intact => intact
  | _, _, .cons name value default rest, (x, xs), key, d, unknown, intact => by
    rw [names, List.mem_cons, not_or] at unknown
    rw [Accepts, if_neg unknown.1]
    exact rest.accepts_of_unknown xs unknown.2 intact

/-- A map that holds the entries of the fields, some left out and others besides, spells them. -/
theorem spelled_of_kept {fields : Fields τ σ} {parts : τ} {kept : List (String × Json)}
    (keeps : fields.Kept parts kept)
    (accepts : ∀ key w, (key, w) ∈ kept → fields.Accepts parts key (.ofJson w))
    (m : SortedMap Json)
    (holds : ∀ key ∈ fields.names, ∀ w, m.get? key = some w ↔ (key, w) ∈ kept) :
    Spelled (fields.Covers parts) (fields.Accepts parts) (fields.Itemized parts)
      (.object (Document.ofJsonEntries m.entries)) := by
  have named : (Document.ofJsonEntries m.entries).map (·.1) = m.keys.map some := by
    rw [Document.ofJsonEntries_eq_map, SortedMap.keys, List.map_map, List.map_map]
    rfl
  refine ⟨m.keys, named, m.keys_nodup, ?_, ?_⟩
  · refine fields.covers_of_kept parts kept m.keys keeps fun entry member => ?_
    have known := (fields.names_of_kept parts kept keeps).subset (List.mem_map_of_mem member)
    exact SortedMap.mem_keys_iff.mpr ⟨_, (holds _ known _).mpr member⟩
  · intro key d member
    rw [Document.ofJsonEntries_eq_map] at member
    obtain ⟨⟨name, w⟩, present, same⟩ := List.mem_map.mp member
    cases same
    -- An entry of a field was kept, and for the others any value will do.
    by_cases known : name ∈ fields.names
    · exact accepts name w ((holds name known w).mp (SortedMap.get?_eq_some_iff.mpr present))
    · exact fields.accepts_of_unknown parts known (Document.intact_ofJson w)

/-- An object of the tag and the fields besides is tagged, and what is left spells the fields. -/
theorem tagged_of_extended {fields : Fields τ σ} {parts : τ} (lawful : fields.Lawful)
    (apart : tagKey ∉ fields.names) {tag : String} {v : Json}
    (extended : Extended (tagKey :: fields.names) (fun entries => ∃ kept, fields.Kept parts kept ∧
      entries = (tagKey, .string tag) :: kept) v)
    (accepts : ∀ kept, fields.Kept parts kept → ∀ key w, (key, w) ∈ kept →
      fields.Accepts parts key (.ofJson w)) :
    ∃ body, Tagged (.ofJson v) tag body ∧
      Spelled (fields.Covers parts) (fields.Accepts parts) (fields.Itemized parts) body := by
  have distinct := List.nodup_cons.mpr ⟨apart, fields.names_nodup lawful⟩
  obtain ⟨_, ⟨kept, keeps, rfl⟩, m, rfl, holds⟩ := extended.exists_map distinct (by
    rintro _ ⟨kept, keeps, rfl⟩
    exact (fields.names_of_kept parts kept keeps).cons_cons tagKey)
  have held := (holds tagKey List.mem_cons_self _).mpr List.mem_cons_self
  have body := Tagged.object (Document.ofJsonEntries m.entries) tag (entry?_of_find? held)
  rw [Document.filter_ofJsonEntries] at body
  refine ⟨_, body, spelled_of_kept keeps (accepts kept keeps) (m.erase tagKey) ?_⟩
  intro key known w
  have other : key ≠ tagKey := fun same => apart (same ▸ known)
  rw [SortedMap.get?_erase, if_neg other.symm, holds key (List.mem_cons_of_mem _ known),
    List.mem_cons]
  exact or_iff_right fun same => other (congrArg Prod.fst same)

/-- In an object of the tag and the fields apart, the tag is found and so is what spells them. -/
theorem content_of_extended {fields : Fields τ σ} {parts : τ} (lawful : fields.Lawful)
    {tag : String} {v : Json}
    (extended : Extended [tagKey, contentKey]
      (Enclosed tag fields.length (Extended fields.names (fields.Kept parts))) v)
    (accepts : ∀ kept, fields.Kept parts kept → ∀ key w, (key, w) ∈ kept →
      fields.Accepts parts key (.ofJson w)) :
    ∃ entries, Document.ofJson v = .object entries ∧ entry? tagKey entries = some (.string tag) ∧
      SpelledContent fields.length
        (Spelled (fields.Covers parts) (fields.Accepts parts) (fields.Itemized parts))
        ( entry? contentKey entries) := by
  obtain ⟨entries, enclosed, m, rfl, holds⟩ :=
    extended.exists_map (by decide) fun _ => Enclosed.names
  refine ⟨Document.ofJsonEntries m.entries, rfl, ?_⟩
  rw [Enclosed] at enclosed
  split at enclosed
  next empty =>
    subst enclosed
    have held := (holds tagKey (by decide) _).mpr List.mem_cons_self
    refine ⟨entry?_of_find? held, ?_⟩
    -- No entry goes by the name of the content.
    have absent : m.get? contentKey = none := by
      refine Option.eq_none_iff_forall_ne_some.mpr fun w found => ?_
      have member := (holds contentKey (by decide) w).mp found
      have same : contentKey = tagKey := congrArg Prod.fst (List.mem_singleton.mp member)
      exact absurd same (by decide)
    have missing : entry? contentKey (Document.ofJsonEntries m.entries) = none := by
      rw [entry?_ofJsonEntries]
      exact congrArg (Option.map Document.ofJson) absent
    rw [missing]
    exact empty
  next present =>
    obtain ⟨v, content, rfl⟩ := enclosed
    have held := (holds tagKey (by decide) _).mpr List.mem_cons_self
    have found := (holds contentKey (by decide) _).mpr (List.mem_cons_of_mem _ List.mem_cons_self)
    refine ⟨entry?_of_find? held, ?_⟩
    obtain ⟨kept, keeps, inner, rfl, kept_held⟩ :=
      content.exists_map (fields.names_nodup lawful) (fields.names_of_kept parts)
    rw [entry?_of_find? found]
    exact ⟨present, spelled_of_kept keeps (accepts kept keeps) inner kept_held⟩

end Fields

/-! ### Renderings are spellings -/

mutual

/-- The document of a rendering is a spelling. -/
theorem Desc.spells_of_renders : ∀ {α : Type} (desc : Desc α), desc.Lawful →
    ∀ x : α, desc.Canonical x → ∀ v, desc.Renders x v → desc.Spells x (.ofJson v)
  | _, .text, _, _, _, _, renders => by
    rw [Desc.Renders] at renders
    rw [renders]
    rfl
  | _, .flag, _, _, _, _, renders => by
    rw [Desc.Renders] at renders
    rw [renders]
    rfl
  | _, .integer _, _, _, _, _, renders => by
    rw [Desc.Renders] at renders
    rw [renders]
    rfl
  | _, .any, _, _, canonical, _, renders => by
    rw [Desc.Renders] at renders
    rw [Desc.Spells, renders, Document.value?_ofJson canonical]
  | _, .optional _, _, none, _, _, renders => by
    rw [Desc.Renders] at renders
    rw [renders]
    rfl
  | _, .optional content, lawful, some x, canonical, v, renders => by
    rw [Desc.Canonical] at canonical
    rw [Desc.Renders] at renders
    refine ⟨fun null => ?_, content.spells_of_renders lawful.1 x canonical v renders⟩
    cases v with
    | null => exact lawful.2 x (content.encode_eq_null_of_renders renders)
    | _ => cases null
  | _, .list item, lawful, xs, canonical, v, renders => by
    rw [Desc.Canonical] at canonical
    rw [Desc.Renders] at renders
    rw [Desc.Spells]
    obtain ⟨items, rfl, each⟩ := renders
    refine ⟨_, congrArg _ (Document.ofJsonItems_eq_map items), List.forall₂_map_right_iff.mpr ?_⟩
    refine ((List.forall₂_and_left _ _).mpr ⟨canonical, each⟩).imp fun x v both => ?_
    exact item.spells_of_renders lawful x both.1 v both.2
  | _, .map value, lawful, m, canonical, v, renders => by
    rw [Desc.Canonical] at canonical
    rw [Desc.Renders] at renders
    rw [Desc.Spells]
    obtain ⟨entries, rfl, each⟩ := renders
    refine ⟨_, congrArg _ (Document.ofJsonEntries_eq_map entries),
      List.forall₂_map_right_iff.mpr ?_⟩
    refine ((List.forall₂_and_left _ _).mpr ⟨canonical, each⟩).imp fun entry written both => ?_
    exact ⟨congrArg some both.2.1,
      value.spells_of_renders lawful entry.2 both.1 written.2 both.2.2⟩
  | _, .enumeration _ _, _, _, _, _, renders => by
    rw [Desc.Renders] at renders
    rw [renders]
    rfl
  | _, .record _ fields _ parts _, lawful, x, canonical, v, renders => by
    rw [Desc.Canonical] at canonical
    rw [Desc.Renders] at renders
    rw [Desc.Spells]
    rcases renders with extended | ⟨items, listed, rfl⟩
    · obtain ⟨kept, keeps, m, rfl, holds⟩ :=
        extended.exists_map (fields.names_nodup lawful) (fields.names_of_kept (parts x))
      exact Fields.spelled_of_kept keeps
        (fields.accepts_of_kept lawful (parts x) canonical kept keeps) m holds
    · exact fields.itemized_of_listed lawful (parts x) canonical items listed
  | _, .tagged _ variants _, lawful, x, canonical, v, renders => by
    rw [Desc.Canonical] at canonical
    rw [Desc.Renders] at renders
    obtain ⟨tag, body, tagged, spells⟩ := variants.spells_beside lawful.1 x canonical v renders
    exact ⟨tag, body, tagged, .inl spells⟩
  | _, .adjacent _ variants, lawful, x, canonical, v, renders => by
    rw [Desc.Canonical] at canonical
    rw [Desc.Renders] at renders
    obtain ⟨tag, entries, object, found, spells⟩ :=
      variants.spells_apart lawful.1 x canonical v renders
    exact ⟨tag, entries, object, found, spells⟩

theorem Fields.accepts_of_kept : ∀ {τ σ : Type} (fields : Fields τ σ), fields.Lawful →
    ∀ parts : τ, fields.Canonical parts → ∀ kept, fields.Kept parts kept →
      ∀ key w, (key, w) ∈ kept → fields.Accepts parts key (.ofJson w)
  | _, _, .nil, _, _, _, kept, keeps, key, w, member => by
    rw [Fields.Kept] at keeps
    rw [keeps] at member
    cases member
  | _, _, .cons name value default rest, lawful, (x, xs), canonical, kept, keeps, key, w,
      member => by
    obtain ⟨first, apart, others⟩ := lawful
    rw [Fields.Canonical] at canonical
    rw [Fields.Kept] at keeps
    rw [Fields.Accepts]
    -- No later field has the name of the first one.
    have later : ∀ entries, rest.Kept xs entries → (key, w) ∈ entries → key ≠ name := by
      rintro entries kept member rfl
      exact apart ((rest.names_of_kept xs entries kept).subset (List.mem_map_of_mem member))
    rcases keeps with ⟨_, keeps⟩ | ⟨v, entries, rfl, renders, keeps⟩
    · rw [if_neg (later kept keeps member)]
      exact rest.accepts_of_kept others xs canonical.2 kept keeps key w member
    · rcases List.mem_cons.mp member with same | member
      · cases same
        rw [if_pos rfl]
        exact value.spells_of_renders first x canonical.1 w renders
      · rw [if_neg (later entries keeps member)]
        exact rest.accepts_of_kept others xs canonical.2 entries keeps key w member

theorem Fields.itemized_of_listed : ∀ {τ σ : Type} (fields : Fields τ σ), fields.Lawful →
    ∀ parts : τ, fields.Canonical parts → ∀ items, fields.Listed parts items →
      fields.Itemized parts (Document.ofJsonItems items)
  | _, _, .nil, _, _, _, items, listed => by
    rw [Fields.Listed] at listed
    rw [listed]
    rfl
  | _, _, .cons name value default rest, lawful, (x, xs), canonical, [], listed => by
    rw [Fields.Canonical] at canonical
    rw [Fields.Listed] at listed
    exact ⟨listed.1, rest.itemized_of_listed lawful.2.2 xs canonical.2 [] listed.2⟩
  | _, _, .cons name value default rest, lawful, (x, xs), canonical, v :: items, listed => by
    rw [Fields.Canonical] at canonical
    rw [Fields.Listed] at listed
    exact ⟨value.spells_of_renders lawful.1 x canonical.1 v listed.1,
      rest.itemized_of_listed lawful.2.2 xs canonical.2 items listed.2⟩

theorem Variants.spells_beside : ∀ {α : Type} (variants : Variants α), variants.Lawful →
    ∀ x : α, variants.Canonical x → ∀ v, variants.Renders false x v →
      ∃ tag body, Tagged (.ofJson v) tag body ∧ variants.Spells false x tag (some body)
  | _, .nil, _, _, _, _, renders => renders.elim
  | _, .cons tag label fields inject project inject_project rest, lawful, x, canonical, v,
      renders => by
    obtain ⟨first, apart, _, others⟩ := lawful
    rw [Variants.Canonical] at canonical
    rw [Variants.Renders] at renders
    simp only [Variants.Spells]
    cases projected : project x with
    | none =>
      rw [projected] at canonical renders
      exact rest.spells_beside others x canonical v renders
    | some parts =>
      rw [projected] at canonical renders
      rcases renders with extended | ⟨items, listed, rfl⟩
      · obtain ⟨body, tagged, spelled⟩ := Fields.tagged_of_extended first apart extended
          (fields.accepts_of_kept first parts canonical)
        exact ⟨tag, body, tagged, rfl, body, rfl, spelled⟩
      · have itemized := fields.itemized_of_listed first parts canonical items listed
        exact ⟨tag, _, .array tag (Document.ofJsonItems items), rfl, _, rfl, itemized⟩

theorem Variants.spells_apart : ∀ {α : Type} (variants : Variants α), variants.Lawful →
    ∀ x : α, variants.Canonical x → ∀ v, variants.Renders true x v →
      ∃ tag entries, Document.ofJson v = .object entries ∧
        entry? tagKey entries = some (.string tag) ∧
        variants.Spells true x tag ( entry? contentKey entries)
  | _, .nil, _, _, _, _, renders => renders.elim
  | _, .cons tag label fields inject project inject_project rest, lawful, x, canonical, v,
      renders => by
    obtain ⟨first, _, _, others⟩ := lawful
    rw [Variants.Canonical] at canonical
    rw [Variants.Renders] at renders
    simp only [Variants.Spells]
    cases projected : project x with
    | none =>
      rw [projected] at canonical renders
      exact rest.spells_apart others x canonical v renders
    | some parts =>
      rw [projected] at canonical renders
      obtain ⟨entries, object, found, content⟩ := Fields.content_of_extended first renders
        (fields.accepts_of_kept first parts canonical)
      exact ⟨tag, entries, object, found, rfl, content⟩

end

/-! ### All wire types -/

/--
What a value of a wire type is written as is a rendering of it, and every rendering is read as the
value: fields at their defaults may be left out, anything may be added under other names, and a
record may be an array, at each record by itself.
-/
theorem read_of_renders (t : WireType) {x : t.Value} (genuine : t.Genuine x) :
    t.desc.Renders x (t.desc.write x) ∧ ∀ v, t.desc.Renders x v → t.desc.read v = .ok x := by
  have canonical := t.canonical_of_genuine genuine
  refine ⟨t.desc.renders_write t.lawful x canonical, fun v renders => ?_⟩
  have spells := t.desc.spells_of_renders t.lawful x canonical v renders
  exact t.desc.decode_of_spells t.lawful .value x (.ofJson v) spells

/--
A member without a role and with an entry that nobody knows, whose permission is an array; a request
that is an array, with an object inside that has such an entry; an operation with entries of the
kind both beside its content and in it; and a report that is an array, with the JSON value of an
action inside.
-/
theorem read_of_renders_mixed :
    let person : Member := ⟨"u", none, .ofList [("edit", ⟨true, none⟩)], false⟩
    let person_rendered : Json := .ofEntries [("id", .string "u"),
      ("permissions", .object [("edit", .array [.bool true])]), ("since", .int 7)]
    let check : ServerRequest := .checkState ∅ (some ⟨none, some ["t"]⟩)
    let check_rendered : Json := .array [.string "CHECK_STATE", .object [],
      .ofEntries [("deleteThreadIDs", .array [.string "t"]), ("type", .null)]]
    let removal : StoreOperation := .remove ["t"]
    let removal_rendered : Json := .ofEntries [("type", .string "remove"),
      ("payload", .ofEntries [("ids", .array [.string "t"]), ("type", .bool false)]),
      ("ids", .array [])]
    let found : Report :=
      ⟨.threadInconsistency, .standard, ∅, .object [("type", .string "LOGIN")], ∅, [], 7⟩
    let found_rendered : Json := .array [.string "THREAD_INCONSISTENCY", .array [.string "linux"],
      .object [], .object [("type", .string "LOGIN")], .object [], .array [], .int 7]
    (member.Renders person person_rendered ∧ member.read person_rendered = .ok person) ∧
    (serverRequest.Renders check check_rendered ∧
      serverRequest.read check_rendered = .ok check) ∧
    (operation.Renders removal removal_rendered ∧
      operation.read removal_rendered = .ok removal) ∧
    found.action.Canonical ∧ report.Renders found found_rendered ∧
      report.read found_rendered = .ok found := by
  intro person person_rendered check check_rendered removal removal_rendered found found_rendered
  have edit : permission.Renders ⟨true, none⟩ (.array [.bool true]) :=
    .inr ⟨[.bool true], ⟨rfl, rfl, rfl⟩, rfl⟩
  have permissions : (Desc.map permission).Renders person.permissions
      (.object [("edit", .array [.bool true])]) :=
    ⟨_, rfl, .cons ⟨rfl, edit⟩ .nil⟩
  have person_renders : member.Renders person person_rendered := by
    -- The role is left out, and so is whether the member sends.
    refine .inl ⟨[_, _], [("since", .int 7)], .inr ⟨_, _, rfl, rfl, .inl ⟨rfl, .inr ⟨_, _, rfl,
      permissions, .inl ⟨rfl, rfl⟩⟩⟩⟩, ?_, rfl⟩
    decide
  have ids : (Desc.list .text).Renders ["t"] (.array [.string "t"]) := ⟨_, rfl, .cons rfl .nil⟩
  have changes : stateChanges.Renders ⟨none, some ["t"]⟩
      (.ofEntries [("deleteThreadIDs", .array [.string "t"]), ("type", .null)]) := by
    refine .inl ⟨[_], [("type", .null)], .inl ⟨rfl, .inr ⟨_, _, rfl, ids, rfl⟩⟩, ?_, rfl⟩
    decide
  have check_renders : serverRequest.Renders check check_rendered :=
    .inr ⟨[_, _], ⟨⟨[], rfl, .nil⟩, changes, rfl⟩, rfl⟩
  have content : Extended ["ids"]
      ((Fields.required "ids" (.list .text) .nil).Kept (["t"], ()))
      (.ofEntries [("ids", .array [.string "t"]), ("type", .bool false)]) := by
    refine ⟨[_], [("type", .bool false)], .inr ⟨_, _, rfl, ids, rfl⟩, ?_, rfl⟩
    decide
  have removal_renders : operation.Renders removal removal_rendered := by
    refine ⟨_, [("ids", .array [])], ⟨_, content, rfl⟩, ?_, rfl⟩
    decide
  have platform_renders : platform.Renders .standard (.array [.string "linux"]) :=
    .inr ⟨[_], ⟨rfl, rfl, rfl, rfl⟩, rfl⟩
  have nothing : threadMap.Renders ∅ (.object []) := ⟨[], rfl, .nil⟩
  have found_renders : report.Renders found found_rendered :=
    .inr ⟨[_, _, _, _, _, _, _],
      ⟨rfl, platform_renders, nothing, rfl, nothing, ⟨[], rfl, .nil⟩, rfl, rfl⟩, rfl⟩
  have canonical : found.action.Canonical := ⟨List.pairwise_singleton _ _, trivial, trivial⟩
  exact ⟨⟨person_renders, (read_of_renders .member trivial).2 _ person_renders⟩,
    ⟨check_renders, (read_of_renders .serverRequest trivial).2 _ check_renders⟩,
    ⟨removal_renders, (read_of_renders .operation trivial).2 _ removal_renders⟩,
    canonical, found_renders, (read_of_renders .report (x := found) canonical).2 _ found_renders⟩

end ThreadCache.Wire
