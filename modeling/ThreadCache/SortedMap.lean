/-!
# Sorted maps

Maps from names to values whose entries are kept in the order of the names. Two maps are equal
exactly when they hold the same value at every name (`SortedMap.ext`), and a walk over a map
visits the names in code point order.
-/

namespace ThreadCache

/-! ## Entries in order of their names -/

namespace Entries

def Ascending (entries : List (String × α)) : Prop :=
  entries.Pairwise fun a b => a.1 < b.1

instance (entries : List (String × α)) : Decidable (Ascending entries) :=
  inferInstanceAs (Decidable (entries.Pairwise _))

/-- Puts a value under a name: over the entry of that name, or where the name belongs. -/
def insert (key : String) (value : α) : List (String × α) → List (String × α)
  | [] => [(key, value)]
  | entry :: rest =>
    if key < entry.1 then (key, value) :: entry :: rest
    else if key = entry.1 then (key, value) :: rest
    else entry :: insert key value rest

def erase (key : String) (entries : List (String × α)) : List (String × α) :=
  entries.filter fun entry => entry.1 ≠ key

def find? (key : String) : List (String × α) → Option α
  | [] => none
  | entry :: rest => if entry.1 = key then some entry.2 else find? key rest

theorem lt_of_not_lt {a b : String} (h : ¬ a < b) (hne : a ≠ b) : b < a :=
  Decidable.byContradiction fun hba =>
    hne (String.le_antisymm (String.not_lt.1 hba) (String.not_lt.1 h))

theorem mem_insert {key : String} {value : α} {entries : List (String × α)} {e : String × α}
    (h : e ∈ insert key value entries) : e = (key, value) ∨ e ∈ entries := by
  -- The entry goes in front of the first one, in its place, or behind it.
  induction entries with
  | nil => simpa [insert] using h
  | cons entry rest ih =>
    unfold insert at h
    split at h
    · simpa using h
    · split at h
      · rcases List.mem_cons.1 h with h | h <;> simp [h]
      · rcases List.mem_cons.1 h with h | h
        · simp [h]
        · rcases ih h with h | h <;> simp [h]

theorem Ascending.insert {entries : List (String × α)} (h : Ascending entries)
    (key : String) (value : α) : Ascending (insert key value entries) := by
  induction entries with
  | nil => simp [Entries.insert, Ascending]
  | cons entry rest ih =>
    have hrest := List.pairwise_cons.1 h
    unfold Entries.insert
    split
    · rename_i hlt
      refine List.pairwise_cons.2 ⟨fun e he => ?_, h⟩
      rcases List.mem_cons.1 he with rfl | he
      · exact hlt
      · exact String.lt_trans hlt (hrest.1 e he)
    · split
      · rename_i heq
        exact List.pairwise_cons.2 ⟨fun e he => heq ▸ hrest.1 e he, hrest.2⟩
      -- The entry goes further back, behind the first name and whatever comes after it.
      · rename_i hlt hne
        refine List.pairwise_cons.2 ⟨fun e he => ?_, ih hrest.2⟩
        rcases mem_insert he with rfl | he
        · exact lt_of_not_lt hlt hne
        · exact hrest.1 e he

theorem Ascending.erase {entries : List (String × α)} (h : Ascending entries) (key : String) :
    Ascending (erase key entries) :=
  List.Pairwise.filter _ h

theorem Ascending.map {entries : List (String × α)} (h : Ascending entries) (f : α → β) :
    Ascending (entries.map fun entry => (entry.1, f entry.2)) :=
  List.pairwise_map.2 h

theorem find?_insert (key : String) (value : α) (entries : List (String × α)) (k : String) :
    find? k (insert key value entries) = if key = k then some value else find? k entries := by
  induction entries with
  | nil => rfl
  | cons entry rest ih =>
    unfold insert
    split
    · rfl
    · split
      · rename_i heq
        by_cases hk : key = k
        · simp [find?, hk]
        · simp [find?, hk, ← heq]
      -- The entry goes further back, where it hides no entry that it does not replace.
      · rename_i hne
        by_cases hk : entry.1 = k
        · simp [find?, hk, show key ≠ k from fun h => hne (h.trans hk.symm)]
        · simpa [find?, hk] using ih

theorem find?_erase (key : String) (entries : List (String × α)) (k : String) :
    find? k (erase key entries) = if key = k then none else find? k entries := by
  induction entries with
  | nil => simp [find?, erase]
  | cons entry rest ih =>
    -- The first entry is kept or dropped, and is the one looked for or another.
    unfold erase at ih ⊢
    grind [find?]

theorem find?_map (f : α → β) (entries : List (String × α)) (k : String) :
    find? k (entries.map fun entry => (entry.1, f entry.2)) = (find? k entries).map f := by
  induction entries with
  | nil => rfl
  | cons entry rest ih => simp only [List.map_cons, find?]; split <;> simp [ih]

theorem find?_eq_none_of_lt {entries : List (String × α)} {k : String}
    (h : ∀ e ∈ entries, k < e.1) : find? k entries = none := by
  induction entries with
  | nil => rfl
  | cons entry rest ih =>
    have hne : entry.1 ≠ k := fun heq => String.lt_irrefl k (heq ▸ h entry (by simp))
    simpa [find?, hne] using ih fun e he => h e (by simp [he])

theorem Ascending.find?_eq_some_iff {entries : List (String × α)} (h : Ascending entries)
    {k : String} {v : α} : find? k entries = some v ↔ (k, v) ∈ entries := by
  induction entries with
  | nil => simp [find?]
  | cons entry rest ih =>
    have hrest := List.pairwise_cons.1 h
    by_cases hk : entry.1 = k
    -- The first entry is found, and no later one has its name.
    · have hnone : (k, v) ∉ rest := fun hmem =>
        String.lt_irrefl k (by simpa [hk] using hrest.1 _ hmem)
      simp only [find?, hk, if_true, List.mem_cons, hnone, or_false]
      constructor
      · rintro ⟨⟩; exact Prod.ext hk.symm rfl
      · rintro rfl; rfl
    · simp only [find?, hk, if_false, ih hrest.2, List.mem_cons]
      constructor
      · exact Or.inr
      · rintro (rfl | hmem)
        · exact absurd rfl hk
        · exact hmem

/-- Entries in order are determined by what they hold at each name. -/
theorem Ascending.ext {a b : List (String × α)} (ha : Ascending a) (hb : Ascending b)
    (h : ∀ k, find? k a = find? k b) : a = b := by
  induction a generalizing b with
  | nil =>
    cases b with
    | nil => rfl
    | cons y ys => simpa [find?] using h y.1
  | cons x xs ih =>
    cases b with
    | nil => simpa [find?] using h x.1
    | cons y ys =>
      have hx := List.pairwise_cons.1 ha
      have hy := List.pairwise_cons.1 hb
      -- The smaller of two different first names would be held on one side only.
      have hkey : x.1 = y.1 := by
        refine Decidable.byContradiction fun hne => ?_
        by_cases hlt : x.1 < y.1
        · have hnone : find? x.1 (y :: ys) = none := find?_eq_none_of_lt fun e he => by
            rcases List.mem_cons.1 he with rfl | he
            · exact hlt
            · exact String.lt_trans hlt (hy.1 e he)
          have := h x.1
          rw [hnone] at this
          simp [find?] at this
        · have hgt := lt_of_not_lt hlt hne
          have hnone : find? y.1 (x :: xs) = none := find?_eq_none_of_lt fun e he => by
            rcases List.mem_cons.1 he with rfl | he
            · exact hgt
            · exact String.lt_trans hgt (hx.1 e he)
          have := h y.1
          rw [hnone] at this
          simp [find?] at this
      have hval : x.2 = y.2 := by simpa [find?, hkey] using h x.1
      have hhead : x = y := Prod.ext hkey hval
      subst hhead
      -- The first name stands in neither rest, so the rests agree at it too.
      refine congrArg (x :: ·) (ih hx.2 hy.2 fun k => ?_)
      by_cases hk : x.1 = k
      · rw [find?_eq_none_of_lt fun e he => hk ▸ hx.1 e he,
          find?_eq_none_of_lt fun e he => hk ▸ hy.1 e he]
      · simpa [find?, hk] using h k

end Entries

/-! ## Maps -/

/-- A map from names to values, as its entries in the order of the names. -/
structure SortedMap (α : Type) where
  entries : List (String × α)
  ascending : Entries.Ascending entries
  deriving DecidableEq

namespace SortedMap

variable {α β : Type}

def empty : SortedMap α := ⟨[], List.Pairwise.nil⟩

instance : EmptyCollection (SortedMap α) := ⟨empty⟩

instance : Inhabited (SortedMap α) := ⟨empty⟩

instance [Repr α] : Repr (SortedMap α) := ⟨fun m prec => reprPrec m.entries prec⟩

def get? (m : SortedMap α) (key : String) : Option α := Entries.find? key m.entries

def contains (m : SortedMap α) (key : String) : Bool := (m.get? key).isSome

def insert (m : SortedMap α) (key : String) (value : α) : SortedMap α :=
  ⟨Entries.insert key value m.entries, m.ascending.insert key value⟩

def erase (m : SortedMap α) (key : String) : SortedMap α :=
  ⟨Entries.erase key m.entries, m.ascending.erase key⟩

/-- The map with every value replaced by its image. -/
def map (f : α → β) (m : SortedMap α) : SortedMap β :=
  ⟨m.entries.map fun entry => (entry.1, f entry.2), m.ascending.map f⟩

def keys (m : SortedMap α) : List String := m.entries.map (·.1)

def values (m : SortedMap α) : List α := m.entries.map (·.2)

def size (m : SortedMap α) : Nat := m.entries.length

def isEmpty (m : SortedMap α) : Bool := m.entries.isEmpty

/-- Inserts entries one after the other, so of two with one name the later stays. -/
def insertMany (m : SortedMap α) (entries : List (String × α)) : SortedMap α :=
  entries.foldl (fun m entry => m.insert entry.1 entry.2) m

def ofList (entries : List (String × α)) : SortedMap α := empty.insertMany entries

theorem isEmpty_iff {m : SortedMap α} : m.isEmpty = true ↔ m = ∅ := by
  constructor
  · intro none
    obtain ⟨entries, _⟩ := m
    cases List.isEmpty_iff.mp none
    rfl
  · rintro rfl
    rfl

@[simp] theorem get?_empty (k : String) : (∅ : SortedMap α).get? k = none := rfl

@[grind =] theorem get?_insert (m : SortedMap α) (key : String) (value : α) (k : String) :
    (m.insert key value).get? k = if key = k then some value else m.get? k :=
  Entries.find?_insert key value m.entries k

@[grind =] theorem get?_erase (m : SortedMap α) (key k : String) :
    (m.erase key).get? k = if key = k then none else m.get? k :=
  Entries.find?_erase key m.entries k

@[simp, grind =] theorem get?_map (f : α → β) (m : SortedMap α) (k : String) :
    (m.map f).get? k = (m.get? k).map f :=
  Entries.find?_map f m.entries k

theorem get?_eq_some_iff {m : SortedMap α} {k : String} {v : α} :
    m.get? k = some v ↔ (k, v) ∈ m.entries :=
  m.ascending.find?_eq_some_iff

/-- A map is what it holds at each name. -/
theorem ext {a b : SortedMap α} (h : ∀ k, a.get? k = b.get? k) : a = b := by
  cases a; cases b
  simp only [mk.injEq]
  exact Entries.Ascending.ext ‹_› ‹_› h

theorem mem_values_iff {m : SortedMap α} {v : α} : v ∈ m.values ↔ ∃ k, m.get? k = some v := by
  simp only [values, List.mem_map, get?_eq_some_iff, Prod.exists, exists_eq_right]

theorem mem_keys_iff {m : SortedMap α} {k : String} : k ∈ m.keys ↔ ∃ v, m.get? k = some v := by
  simp only [keys, List.mem_map, get?_eq_some_iff, Prod.exists, exists_and_right, exists_eq_right]

/-! ### Maps under a function -/

@[simp] theorem map_empty (f : α → β) : (∅ : SortedMap α).map f = ∅ := rfl

theorem map_insert (f : α → β) (m : SortedMap α) (key : String) (value : α) :
    (m.insert key value).map f = (m.map f).insert key (f value) := by
  apply ext
  intro k
  rw [get?_map, get?_insert, get?_insert, get?_map]
  split <;> rfl

theorem map_erase (f : α → β) (m : SortedMap α) (key : String) :
    (m.erase key).map f = (m.map f).erase key := by
  apply ext
  intro k
  rw [get?_map, get?_erase, get?_erase, get?_map]
  split <;> rfl

/-- Marks that a function forgets are not in the map that it gives. -/
theorem map_map_eq_self {f : α → β} {g : β → α} (h : ∀ a, g (f a) = a) (m : SortedMap α) :
    (m.map f).map g = m := by
  apply ext
  intro k
  simp only [get?_map, Option.map_map, Function.comp_def, h, Option.map_id']

/-! ### Many entries -/

@[simp] theorem insertMany_nil (m : SortedMap α) : m.insertMany [] = m := rfl

@[simp] theorem insertMany_cons (m : SortedMap α) (entry : String × α)
    (entries : List (String × α)) :
    m.insertMany (entry :: entries) = (m.insert entry.1 entry.2).insertMany entries := rfl

/-- Entries under other names do not matter. -/
theorem get?_insertMany_of_absent {k : String} {entries : List (String × α)}
    (h : ∀ e ∈ entries, e.1 ≠ k) (m : SortedMap α) : (m.insertMany entries).get? k = m.get? k := by
  induction entries generalizing m with
  | nil => rfl
  | cons entry entries ih =>
    rw [insertMany_cons, ih fun e he => h e (List.mem_cons_of_mem _ he), get?_insert,
      if_neg (h entry List.mem_cons_self)]

/-- A name whose entries all hold one value gets that value. -/
theorem get?_insertMany_of_unique {k : String} {v : α} {entries : List (String × α)}
    (present : (k, v) ∈ entries) (unique : ∀ e ∈ entries, e.1 = k → e.2 = v) (m : SortedMap α) :
    (m.insertMany entries).get? k = some v := by
  induction entries generalizing m with
  | nil => cases present
  | cons entry entries ih =>
    have tail : ∀ e ∈ entries, e.1 = k → e.2 = v :=
      fun e he => unique e (List.mem_cons_of_mem _ he)
    rw [insertMany_cons]
    by_cases later : (k, v) ∈ entries
    · exact ih later tail _
    · have absent : ∀ e ∈ entries, e.1 ≠ k := by
        intro e he name
        exact later (by rwa [← name, ← tail e he name])
      have first : entry = (k, v) := ((List.mem_cons.mp present).resolve_right later).symm
      rw [get?_insertMany_of_absent absent, first, get?_insert, if_pos rfl]

/-- Writing the entries of a map in their order into an empty one gives the map again. -/
theorem ofList_entries (m : SortedMap α) : ofList m.entries = m := by
  apply ext
  intro k
  cases held : m.get? k with
  | none =>
    refine get?_insertMany_of_absent ?_ _
    rintro ⟨key, value⟩ he rfl
    rw [get?_eq_some_iff.mpr he] at held
    cases held
  | some v =>
    refine get?_insertMany_of_unique (get?_eq_some_iff.mp held) ?_ _
    rintro ⟨key, value⟩ he rfl
    rw [get?_eq_some_iff.mpr he] at held
    exact Option.some.inj held

end SortedMap

end ThreadCache
