import ThreadCache.Proofs.Json.Value
import ThreadCache.Proofs.Wire.Spelling

/-!
# Canonical values

Some values have JSON values inside them, which stand for what was written only if they list the
entries of every object in order.

## Main results

* `Desc.canonical_of_plain`: where the description holds no JSON values, every value is canonical.
* `Desc.record_yields`: a record that is read is canonical if its fields are.

## Proof strategy

The fields of a record are filled one by one, from an object or from an array. What has been filled
so far is canonical (`Fields.SlotsCanonical`), and so are the defaults that fill the rest.
-/

namespace ThreadCache

/-- What follows a computation gives a result exactly if the computation gives it one to go on. -/
theorem bind_eq_ok_iff {ε α β : Type} {x : Except ε α} {f : α → Except ε β} {b : β} :
    x >>= f = .ok b ↔ ∃ a, x = .ok a ∧ f a = .ok b := by
  cases x with
  | ok a => simp [bind, Except.bind]
  | error e => simp [bind, Except.bind]

theorem bind_eq_error_iff {ε α β : Type} {x : Except ε α} {f : α → Except ε β} {e : ε} :
    x >>= f = .error e ↔ x = .error e ∨ ∃ a, x = .ok a ∧ f a = .error e := by
  cases x with
  | ok a => simp [bind, Except.bind]
  | error e => simp [bind, Except.bind]

theorem map_eq_ok_iff {ε α β : Type} {x : Except ε α} {f : α → β} {b : β} :
    x.map f = .ok b ↔ ∃ a, x = .ok a ∧ f a = b := by
  cases x with
  | ok a => simp [Except.map]
  | error e => simp [Except.map]

namespace Wire

mutual

/-- Every JSON value inside a value lists its entries in order. -/
def Desc.Canonical : {α : Type} → Desc α → α → Prop
  | _, .text, _ => True
  | _, .flag, _ => True
  | _, .integer _, _ => True
  | _, .any, v => v.Canonical
  | _, .optional _, none => True
  | _, .optional content, some x => content.Canonical x
  | _, .list item, xs => ∀ x ∈ xs, item.Canonical x
  | _, .map value, m => ∀ entry ∈ m.entries, value.Canonical entry.2
  | _, .enumeration _ _, _ => True
  | _, .record _ fields _ parts _, x => fields.Canonical (parts x)
  | _, .tagged _ variants _, x => variants.Canonical x
  | _, .adjacent _ variants, x => variants.Canonical x

def Fields.Canonical : {τ σ : Type} → Fields τ σ → τ → Prop
  | _, _, .nil, _ => True
  | _, _, .cons _ value _ rest, (x, xs) => value.Canonical x ∧ rest.Canonical xs

def Variants.Canonical : {α : Type} → Variants α → α → Prop
  | _, .nil, _ => True
  | _, .cons _ _ fields _ project _ rest, x =>
    match project x with
    | some parts => fields.Canonical parts
    | none => rest.Canonical x

end

/-! ### Descriptions without JSON values -/

mutual

/-- The description holds no other JSON values. -/
def Desc.plain : {α : Type} → Desc α → Bool
  | _, .text => true
  | _, .flag => true
  | _, .integer _ => true
  | _, .any => false
  | _, .optional content => content.plain
  | _, .list item => item.plain
  | _, .map value => value.plain
  | _, .enumeration _ _ => true
  | _, .record _ fields _ _ _ => fields.plain
  | _, .tagged _ variants _ => variants.plain
  | _, .adjacent _ variants => variants.plain

def Fields.plain : {τ σ : Type} → Fields τ σ → Bool
  | _, _, .nil => true
  | _, _, .cons _ value _ rest => value.plain && rest.plain

def Variants.plain : {α : Type} → Variants α → Bool
  | _, .nil => true
  | _, .cons _ _ fields _ _ _ rest => fields.plain && rest.plain

end

mutual

theorem Desc.canonical_of_plain : ∀ {α : Type} (desc : Desc α), desc.plain = true →
    ∀ x : α, desc.Canonical x
  | _, .text, _, _ => trivial
  | _, .flag, _, _ => trivial
  | _, .integer _, _, _ => trivial
  | _, .optional _, _, none => trivial
  | _, .optional content, plain, some x => content.canonical_of_plain plain x
  | _, .list item, plain, _ => fun x _ => item.canonical_of_plain plain x
  | _, .map value, plain, _ => fun entry _ => value.canonical_of_plain plain entry.2
  | _, .enumeration _ _, _, _ => trivial
  | _, .record _ fields _ parts _, plain, x => fields.canonical_of_plain plain (parts x)
  | _, .tagged _ variants _, plain, x => variants.canonical_of_plain plain x
  | _, .adjacent _ variants, plain, x => variants.canonical_of_plain plain x

theorem Fields.canonical_of_plain : ∀ {τ σ : Type} (fields : Fields τ σ), fields.plain = true →
    ∀ parts : τ, fields.Canonical parts
  | _, _, .nil, _, _ => trivial
  | _, _, .cons _ value _ rest, plain, (x, xs) => by
    rw [Fields.plain, Bool.and_eq_true] at plain
    exact ⟨value.canonical_of_plain plain.1 x, rest.canonical_of_plain plain.2 xs⟩

theorem Variants.canonical_of_plain : ∀ {α : Type} (variants : Variants α),
    variants.plain = true → ∀ x : α, variants.Canonical x
  | _, .nil, _, _ => trivial
  | _, .cons _ _ fields _ project _ rest, plain, x => by
    rw [Variants.plain, Bool.and_eq_true] at plain
    rw [Variants.Canonical]
    cases project x with
    | some parts => exact fields.canonical_of_plain plain.1 parts
    | none => exact rest.canonical_of_plain plain.2 x

end

/-! ### What is read -/

/-- Whatever is read is canonical. -/
def Desc.Yields {α : Type} (desc : Desc α) : Prop :=
  ∀ source d x, desc.decode source d = .ok x → desc.Canonical x

theorem Desc.yields_of_plain {α : Type} {desc : Desc α} (plain : desc.plain = true) :
    desc.Yields :=
  fun _ _ x _ => desc.canonical_of_plain plain x

theorem Desc.any_yields : Desc.any.Yields := by
  intro source d v read
  rw [Desc.decode] at read
  cases denotes : d.value? with
  | none =>
    rw [denotes] at read
    cases read
  | some w =>
    rw [denotes] at read
    cases read
    exact Document.canonical_of_value? denotes

namespace Fields

/-- Every field yields canonical values, and so does its default. -/
def Yields : {τ σ : Type} → Fields τ σ → Prop
  | _, _, .nil => True
  | _, _, .cons _ value default rest =>
    value.Yields ∧ (∀ x, default = some x → value.Canonical x) ∧ rest.Yields

/-- The fields filled so far hold canonical values. -/
def SlotsCanonical : {τ σ : Type} → Fields τ σ → σ → Prop
  | _, _, .nil, _ => True
  | _, _, .cons _ value _ rest, (slot, slots) =>
    (∀ x, slot = some x → value.Canonical x) ∧ rest.SlotsCanonical slots

theorem canonical_blank : ∀ {τ σ : Type} (fields : Fields τ σ), fields.SlotsCanonical fields.blank
  | _, _, .nil => trivial
  | _, _, .cons _ _ _ rest => ⟨nofun, rest.canonical_blank⟩

theorem canonical_of_visit : ∀ {τ σ : Type} (fields : Fields τ σ), fields.Yields →
    ∀ {source : Source} {key : String} {d : Document} {slots after : σ},
      fields.visit source key d slots = .ok after → fields.SlotsCanonical slots →
        fields.SlotsCanonical after
  | _, _, .nil, _, _, _, _, _, _, _, _ => trivial
  | _, _, .cons name value default rest, yields, source, key, d, (slot, slots), after, visited,
      canonical => by
    -- The entry is for the first field, which must be empty, or for one of the rest.
    by_cases same : key = name
    · cases slot with
      | some _ =>
        rw [visit, if_pos same] at visited
        cases visited
      | none =>
        rw [visit, if_pos same] at visited
        obtain ⟨x, read, rfl⟩ := map_eq_ok_iff.mp visited
        refine ⟨fun y filled => ?_, canonical.2⟩
        cases filled
        exact yields.1 source d x read
    · rw [visit_of_ne same] at visited
      obtain ⟨others, later, rfl⟩ := map_eq_ok_iff.mp visited
      exact ⟨canonical.1, rest.canonical_of_visit yields.2.2 later canonical.2⟩

theorem canonical_of_finish : ∀ {τ σ : Type} (fields : Fields τ σ), fields.Yields →
    ∀ {slots : σ} {parts : τ}, fields.finish slots = .ok parts → fields.SlotsCanonical slots →
      fields.Canonical parts
  | _, _, .nil, _, _, _, _, _ => trivial
  | _, _, .cons name value default rest, yields, (slot, slots), parts, finished, canonical => by
    rw [finish] at finished
    split at finished
    next x filled =>
      obtain ⟨xs, later, rfl⟩ := map_eq_ok_iff.mp finished
      refine ⟨?_, rest.canonical_of_finish yields.2.2 later canonical.2⟩
      -- The slot was filled by an entry or is filled from the default now.
      cases slot with
      | some entry => exact canonical.1 x filled
      | none => exact yields.2.1 x filled
    next => cases finished

theorem canonical_of_take : ∀ {τ σ : Type} (fields : Fields τ σ), fields.Yields →
    ∀ {source : Source} {label : String} {index : Nat} {items left : List Document} {parts : τ},
      fields.take source label index items = .ok (parts, left) → fields.Canonical parts
  | _, _, .nil, _, _, _, _, _, _, _, _ => trivial
  | _, _, .cons name value default rest, yields, source, label, index, [], left, parts, taken => by
    cases default with
    | none => cases taken
    | some x =>
      obtain ⟨⟨xs, _⟩, others, same⟩ := map_eq_ok_iff.mp taken
      cases same
      exact ⟨yields.2.1 x rfl, rest.canonical_of_take yields.2.2 others⟩
  | _, _, .cons name value default rest, yields, source, label, index, d :: items, left, parts,
      taken => by
    rw [take] at taken
    obtain ⟨x, read, taken⟩ := bind_eq_ok_iff.mp taken
    obtain ⟨⟨xs, _⟩, others, same⟩ := bind_eq_ok_iff.mp taken
    cases same
    exact ⟨yields.1 source d x read, rest.canonical_of_take yields.2.2 others⟩

theorem canonical_of_visitEntries {τ σ : Type} {fields : Fields τ σ} (yields : fields.Yields)
    {source : Source} {entries : List (Option String × Document)} :
    ∀ {slots after : σ}, visitEntries (fields.visit source) entries slots = .ok after →
      fields.SlotsCanonical slots → fields.SlotsCanonical after := by
  induction entries with
  | nil =>
    intro slots after visited canonical
    cases visited
    exact canonical
  | cons entry entries ih =>
    obtain ⟨name, d⟩ := entry
    intro slots after visited canonical
    cases name with
    | none => cases visited
    | some name =>
      rw [visitEntries] at visited
      obtain ⟨between, first, others⟩ := bind_eq_ok_iff.mp visited
      exact ih others (fields.canonical_of_visit yields first canonical)

end Fields

/-- A record that is read is canonical if its fields are. -/
theorem Desc.record_yields {α τ σ : Type} {name : String} {fields : Fields τ σ} {build : τ → α}
    {parts : α → τ} {build_parts : ∀ x, build (parts x) = x} (yields : fields.Yields)
    (parts_build : ∀ t, parts (build t) = t) :
    (Desc.record name fields build parts build_parts).Yields := by
  intro source d x read
  rw [Desc.decode] at read
  obtain ⟨held, assembled, rfl⟩ := map_eq_ok_iff.mp read
  rw [Desc.Canonical, parts_build]
  cases d with
  | object entries =>
    obtain ⟨slots, visited, finished⟩ := bind_eq_ok_iff.mp assembled
    have canonical := Fields.canonical_of_visitEntries yields visited fields.canonical_blank
    exact fields.canonical_of_finish yields finished canonical
  | array items =>
    obtain ⟨⟨taken, left⟩, took, whole⟩ := bind_eq_ok_iff.mp assembled
    cases left with
    | nil =>
      cases whole
      exact fields.canonical_of_take yields took
    | cons => cases whole
  | _ => cases assembled

end Wire

end ThreadCache
