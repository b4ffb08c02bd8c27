import ThreadCache.Proofs.Json.Value
import ThreadCache.Redaction

/-!
# Redaction

Redaction looks at every item of an array and at every entry of an object by itself, and at an entry
with a secret name not at all.

## Main results

* `redact_ofEntries`: redacting an object is redacting the entries that it is built from.
* `redact_hides_exactly`: values come to the same if and only if they differ in nothing but what
  stands under secret names. Of that, only the mask is left.

## Proof strategy

An object is built by putting its entries in the order of their names, which redaction leaves alone.
So an object is read name by name before and after (`find?_redactEntries`). The statements about
values of any depth follow by induction over values (`Json.nested_induction`), and the one about
values that are the same but for secrets by induction over how they are the same.
-/

namespace ThreadCache

/-! ### Entries and items -/

/-- A value as it shows under a name. -/
def redactUnder (secrets : List String) (name : String) (v : Json) : Json :=
  if name ∈ secrets then .string mask else redact secrets v

theorem redactUnder_of_mem {secrets : List String} {name : String} (secret : name ∈ secrets)
    (v : Json) : redactUnder secrets name v = .string mask := if_pos secret

theorem redactUnder_of_not_mem {secrets : List String} {name : String} (shown : name ∉ secrets)
    (v : Json) : redactUnder secrets name v = redact secrets v := if_neg shown

theorem redactEntries_cons (secrets : List String) (name : String) (v : Json)
    (entries : List (String × Json)) :
    redactEntries secrets ((name, v) :: entries) =
      (name, redactUnder secrets name v) :: redactEntries secrets entries := by
  rw [redactEntries]
  rfl

theorem redactItems_eq_map (secrets : List String) (items : List Json) :
    redactItems secrets items = items.map (redact secrets) := by
  induction items with
  | nil => rw [redactItems, List.map_nil]
  | cons item items ih => rw [redactItems, ih, List.map_cons]

theorem redactEntries_eq_map (secrets : List String) (entries : List (String × Json)) :
    redactEntries secrets entries =
      entries.map fun entry => (entry.1, redactUnder secrets entry.1 entry.2) := by
  induction entries with
  | nil => rw [redactEntries, List.map_nil]
  | cons entry entries ih => rw [redactEntries_cons, ih, List.map_cons]

theorem redactEntries_names (secrets : List String) (entries : List (String × Json)) :
    (redactEntries secrets entries).map (·.1) = entries.map (·.1) := by
  rw [redactEntries_eq_map, List.map_map]
  rfl

/-- Under a name shows what stands under it before. -/
theorem find?_redactEntries (secrets : List String) (name : String)
    (entries : List (String × Json)) :
    Entries.find? name (redactEntries secrets entries) =
      (Entries.find? name entries).map (redactUnder secrets name) := by
  induction entries with
  | nil => rw [redactEntries]; rfl
  | cons entry entries ih =>
    rw [redactEntries_cons, Entries.find?, Entries.find?, ih]
    by_cases same : entry.1 = name
    · rw [if_pos same, if_pos same, Option.map_some, same]
    · rw [if_neg same, if_neg same]

theorem ascending_redactEntries {secrets : List String} {entries : List (String × Json)}
    (ascending : Entries.Ascending entries) :
    Entries.Ascending (redactEntries secrets entries) := by
  rw [redactEntries_eq_map]
  exact List.pairwise_map.mpr ascending

/-! ### Building an object -/

theorem redactEntries_insert (secrets : List String) (name : String) (v : Json)
    (entries : List (String × Json)) :
    redactEntries secrets (Entries.insert name v entries) =
      Entries.insert name (redactUnder secrets name v) (redactEntries secrets entries) := by
  induction entries with
  | nil => rw [Entries.insert, redactEntries_cons, redactEntries]; rfl
  | cons entry entries ih =>
    obtain ⟨other, held⟩ := entry
    -- Where the entry goes is up to the names, which redaction leaves alone.
    rw [redactEntries_cons, Entries.insert, Entries.insert]
    split
    · rw [redactEntries_cons, redactEntries_cons]
    · split
      · rw [redactEntries_cons]
      · rw [redactEntries_cons, ih]

theorem redactEntries_insertMany (secrets : List String) (entries : List (String × Json))
    {m shown : SortedMap Json} (start : redactEntries secrets m.entries = shown.entries) :
    redactEntries secrets (m.insertMany entries).entries =
      (shown.insertMany (redactEntries secrets entries)).entries := by
  induction entries generalizing m shown with
  | nil => rwa [redactEntries]
  | cons entry entries ih =>
    rw [redactEntries_cons, SortedMap.insertMany_cons, SortedMap.insertMany_cons]
    refine ih ?_
    rw [SortedMap.insert, redactEntries_insert, start]
    rfl

/-- Redacting an object is redacting the entries that it is built from. -/
theorem redact_ofEntries (secrets : List String) (entries : List (String × Json)) :
    redact secrets (.ofEntries entries) = .ofEntries (redactEntries secrets entries) := by
  have start : redactEntries secrets (∅ : SortedMap Json).entries = (∅ : SortedMap Json).entries := by
    change redactEntries secrets [] = []
    rw [redactEntries]
  rw [Json.ofEntries, redact]
  exact congrArg Json.object (redactEntries_insertMany secrets entries start)

/-! ### Values within values -/

namespace Json

/-- The value has no other values within it. -/
def Scalar : Json → Prop
  | .array _ => False
  | .object _ => False
  | _ => True

/-- A property of all values holds of an array and of an object if it holds of what is in them. -/
@[elab_as_elim]
theorem nested_induction {motive : Json → Prop} (scalar : ∀ v : Json, v.Scalar → motive v)
    (array : ∀ items, (∀ item ∈ items, motive item) → motive (.array items))
    (object : ∀ entries, (∀ entry ∈ entries, motive entry.2) → motive (.object entries)) :
    ∀ v, motive v
  | .array items => array items fun item member =>
      have : sizeOf item < sizeOf items := List.sizeOf_lt_of_mem member
      nested_induction scalar array object item
  | .object entries => object entries fun entry member =>
      have : sizeOf entry < sizeOf entries := List.sizeOf_lt_of_mem member
      nested_induction scalar array object entry.2
  | .null => scalar _ trivial
  | .bool _ => scalar _ trivial
  | .int _ => scalar _ trivial
  | .double _ => scalar _ trivial
  | .string _ => scalar _ trivial
termination_by v => sizeOf v
decreasing_by
  · rw [Json.array.sizeOf_spec]
    omega
  · cases entry
    simp only [Json.object.sizeOf_spec, Prod.mk.sizeOf_spec] at *
    omega

/-- The values differ in nothing but what stands under secret names, at any depth. -/
inductive SameBut (secrets : List String) : Json → Json → Prop
  | scalar {v : Json} (plain : v.Scalar) : SameBut secrets v v
  | array {items items' : List Json} (length : items.length = items'.length)
      (each : ∀ (i : Nat) item item', items[i]? = some item → items'[i]? = some item' →
        SameBut secrets item item') :
      SameBut secrets (.array items) (.array items')
  | object {m m' : SortedMap Json} (names : m.keys = m'.keys)
      (each : ∀ name, name ∉ secrets → ∀ v v', m.get? name = some v → m'.get? name = some v' →
        SameBut secrets v v') :
      SameBut secrets (.object m.entries) (.object m'.entries)

/-- The value occurs in another one, at any depth. -/
inductive Within (u : Json) : Json → Prop
  | here : Within u u
  | item {items : List Json} {item : Json} (member : item ∈ items) (deeper : Within u item) :
      Within u (.array items)
  | entry {entries : List (String × Json)} {entry : String × Json} (member : entry ∈ entries)
      (deeper : Within u entry.2) : Within u (.object entries)

end Json

section Hiding

variable {secrets : List String} {v w : Json}

theorem redact_scalar (plain : v.Scalar) : redact secrets v = v := by
  cases v with
  | array items => exact plain.elim
  | object entries => exact plain.elim
  | _ => rw [redact] <;> simp

theorem scalar_of_redact (plain : (redact secrets v).Scalar) : v.Scalar := by
  cases v with
  | array items =>
    rw [redact] at plain
    exact plain
  | object entries =>
    rw [redact] at plain
    exact plain
  | _ => trivial

/-! ### What shows -/

/-- What differs under secret names alone does not show. -/
theorem redact_of_sameBut (same : v.SameBut secrets w) : redact secrets v = redact secrets w := by
  induction same with
  | scalar => rfl
  | @array items items' length _ ih =>
    rw [redact, redact, redactItems_eq_map, redactItems_eq_map]
    refine congrArg Json.array (List.ext_getElem? fun i => ?_)
    rw [List.getElem?_map, List.getElem?_map]
    by_cases bound : i < items.length
    · have bound' : i < items'.length := length ▸ bound
      rw [List.getElem?_eq_getElem bound, List.getElem?_eq_getElem bound']
      exact congrArg some
        (ih i _ _ (List.getElem?_eq_getElem bound) (List.getElem?_eq_getElem bound'))
    · rw [List.getElem?_eq_none (by omega), List.getElem?_eq_none (by omega)]
  | @object m m' names _ ih =>
    have known (name : String) : (∃ v, m.get? name = some v) ↔ ∃ v, m'.get? name = some v := by
      rw [← SortedMap.mem_keys_iff, ← SortedMap.mem_keys_iff, names]
    rw [redact, redact]
    refine congrArg Json.object ((ascending_redactEntries m.ascending).ext
      (ascending_redactEntries m'.ascending) fun name => ?_)
    rw [find?_redactEntries, find?_redactEntries]
    change (m.get? name).map _ = (m'.get? name).map _
    -- The name is in both objects or in neither, and if it is secret that is all that shows.
    cases held : m.get? name with
    | none =>
      cases held' : m'.get? name with
      | none => rfl
      | some v' =>
        obtain ⟨_, found⟩ := (known name).mpr ⟨v', held'⟩
        rw [held] at found
        cases found
    | some v =>
      obtain ⟨v', held'⟩ := (known name).mp ⟨v, held⟩
      rw [held', Option.map_some, Option.map_some]
      by_cases secret : name ∈ secrets
      · rw [redactUnder_of_mem secret, redactUnder_of_mem secret]
      · rw [redactUnder_of_not_mem secret, redactUnder_of_not_mem secret,
          ih name secret v v' held held']

/-- What differs elsewhere does show. -/
theorem sameBut_of_redact (canonical : v.Canonical) (canonical' : w.Canonical)
    (shown : redact secrets v = redact secrets w) : v.SameBut secrets w := by
  induction v using Json.nested_induction generalizing w with
  | scalar v plain =>
    rw [redact_scalar plain] at shown
    have plain' : w.Scalar := scalar_of_redact (shown ▸ plain)
    rw [redact_scalar plain'] at shown
    exact shown ▸ .scalar plain
  | array items ih =>
    cases w with
    | array items' =>
      rw [Json.Canonical, Json.canonicalItems_iff] at canonical canonical'
      rw [redact, redact, redactItems_eq_map, redactItems_eq_map, Json.array.injEq] at shown
      refine .array (by simpa using congrArg List.length shown) ?_
      intro i item item' at_i at_i'
      have same := congrArg (·[i]?) shown
      simp only [List.getElem?_map, at_i, at_i', Option.map_some, Option.some.injEq] at same
      have member := List.mem_of_getElem? at_i
      have member' := List.mem_of_getElem? at_i'
      exact ih item member (canonical item member) (canonical' item' member') same
    | _ => simp [redact] at shown
  | object entries ih =>
    cases w with
    | object entries' =>
      rw [Json.Canonical, Json.canonicalEntries_iff] at canonical canonical'
      rw [redact, redact, Json.object.injEq] at shown
      let m : SortedMap Json := ⟨entries, canonical.1⟩
      let m' : SortedMap Json := ⟨entries', canonical'.1⟩
      have names : m.keys = m'.keys := by
        have both := congrArg (List.map (·.1)) shown
        rwa [redactEntries_names, redactEntries_names] at both
      refine Json.SameBut.object names ?_
      intro name secret v v' held held'
      have same := congrArg (Entries.find? name) shown
      have found : Entries.find? name entries = some v := held
      have found' : Entries.find? name entries' = some v' := held'
      rw [find?_redactEntries, find?_redactEntries, found, found', Option.map_some,
        Option.map_some, Option.some.injEq, redactUnder_of_not_mem secret,
        redactUnder_of_not_mem secret] at same
      have member := SortedMap.get?_eq_some_iff.mp held
      have member' := SortedMap.get?_eq_some_iff.mp held'
      exact ih (name, v) member (canonical.2 _ member) (canonical'.2 _ member') same
    | _ => simp [redact] at shown

/-! ### What is left under a secret name -/

theorem masked_of_within {entries : List (String × Json)}
    (within : (Json.object entries).Within (redact secrets v)) {name : String} {held : Json}
    (member : (name, held) ∈ entries) (secret : name ∈ secrets) : held = .string mask := by
  induction v using Json.nested_induction with
  | scalar v plain =>
    rw [redact_scalar plain] at within
    cases within <;> exact plain.elim
  | array items ih =>
    rw [redact, redactItems_eq_map] at within
    cases within with
    | item among deeper =>
      obtain ⟨item, listed, rfl⟩ := List.mem_map.mp among
      exact ih item listed deeper
  | object others ih =>
    rw [redact, redactEntries_eq_map] at within
    cases within with
    | here =>
      obtain ⟨entry, _, same⟩ := List.mem_map.mp member
      cases same
      exact redactUnder_of_mem secret _
    | entry among deeper =>
      obtain ⟨entry, listed, rfl⟩ := List.mem_map.mp among
      -- There is no object within a mask.
      by_cases hidden : entry.1 ∈ secrets
      · rw [redactUnder_of_mem hidden] at deeper
        cases deeper
      · rw [redactUnder_of_not_mem hidden] at deeper
        exact ih entry listed deeper

/-- What is redacted already shows as it is. -/
theorem redact_redact (secrets : List String) (v : Json) :
    redact secrets (redact secrets v) = redact secrets v := by
  induction v using Json.nested_induction with
  | scalar v plain => rw [redact_scalar plain, redact_scalar plain]
  | array items ih =>
    rw [redact, redact, redactItems_eq_map, redactItems_eq_map, List.map_map]
    exact congrArg Json.array (List.map_congr_left ih)
  | object entries ih =>
    rw [redact, redact, redactEntries_eq_map, redactEntries_eq_map, List.map_map]
    refine congrArg Json.object (List.map_congr_left fun entry member => Prod.ext rfl ?_)
    simp only [Function.comp_apply]
    by_cases secret : entry.1 ∈ secrets
    · rw [redactUnder_of_mem secret, redactUnder_of_mem secret]
    · rw [redactUnder_of_not_mem secret, redactUnder_of_not_mem secret, ih entry member]

end Hiding

/--
Redaction hides what stands under secret names and nothing else: JSON values, the entries of whose
objects stand in the order of their names, come to the same if and only if they are the same but for
that. In what a value comes to, the mask is all that stands under a secret name at any depth, and
redacting it again changes nothing.
-/
theorem redact_hides_exactly (secrets : List String) :
    (∀ v w : Json, v.Canonical → w.Canonical →
      (redact secrets v = redact secrets w ↔ v.SameBut secrets w)) ∧
      ∀ v : Json,
        (∀ entries, (Json.object entries).Within (redact secrets v) →
          ∀ name held, (name, held) ∈ entries → name ∈ secrets → held = .string mask) ∧
        redact secrets (redact secrets v) = redact secrets v := by
  refine ⟨fun v w canonical canonical' => ?_, fun v => ⟨?_, redact_redact secrets v⟩⟩
  · exact ⟨sameBut_of_redact canonical canonical', redact_of_sameBut⟩
  · intro entries within name held member secret
    exact masked_of_within within member secret

/-- The whole value of a cookie inside an array is hidden, and a difference beside it shows. -/
theorem redact_hides_exactly_nested :
    let secrets := ["cookie", "token"]
    let asked (cookie more : Json) : Json :=
      .object [("all", .array [.object [("cookie", cookie), ("more", more)]]), ("id", .int 1)]
    let v := asked (.object [("a", .string "x"), ("token", .int 1)]) .null
    let w := asked (.string "y") .null
    let u := asked (.string "y") (.bool true)
    let inner := [("cookie", Json.string mask), ("more", .null)]
    v.Canonical ∧ w.Canonical ∧ u.Canonical ∧ v ≠ w ∧ v.SameBut secrets w ∧
      redact secrets v = redact secrets w ∧ ¬ w.SameBut secrets u ∧
      (Json.object inner).Within (redact secrets v) ∧
      (∀ held, ("cookie", held) ∈ inner → held = .string mask) ∧
      redact secrets (redact secrets v) = redact secrets v := by
  intro secrets asked v w u inner
  obtain ⟨shows, remains⟩ := redact_hides_exactly secrets
  obtain ⟨masked, again⟩ := remains v
  have ordered {name name' : String} (before : name < name') (held held' : Json) :
      Entries.Ascending [(name, held), (name', held')] :=
    List.pairwise_pair.mpr before
  have nested (cookie more : Json) (first : cookie.Canonical) (second : more.Canonical) :
      (asked cookie more).Canonical :=
    ⟨ordered (by decide) _ _, ⟨⟨ordered (by decide) _ _, first, second, trivial⟩, trivial⟩,
      trivial, trivial⟩
  have whole : (Json.object [("a", .string "x"), ("token", .int 1)]).Canonical :=
    ⟨ordered (by decide) _ _, trivial, trivial, trivial⟩
  have canonical : v.Canonical := nested _ _ whole trivial
  have canonical' : w.Canonical := nested _ _ trivial trivial
  have canonical'' : u.Canonical := nested _ _ trivial trivial
  have same : redact secrets v = redact secrets w := by decide +kernel
  have differ : redact secrets w ≠ redact secrets u := by decide +kernel
  have left : redact secrets v = asked (.string mask) .null := by decide +kernel
  have within : (Json.object inner).Within (redact secrets v) := by
    rw [left]
    exact .entry List.mem_cons_self (.item List.mem_cons_self .here)
  refine ⟨canonical, canonical', canonical'', by decide +kernel,
    (shows v w canonical canonical').mp same, same,
    fun alike => differ ((shows w u canonical' canonical'').mpr alike), within, ?_, again⟩
  intro held member
  exact masked inner within "cookie" held member (by decide)

end ThreadCache
