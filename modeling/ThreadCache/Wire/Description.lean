import ThreadCache.Json.Document

/-!
# Descriptions of the wire format

A description says how the values of a type are written as JSON. It is data: writing, reading and
every law about them are defined by recursion on descriptions, once for each way of building one.
-/

namespace ThreadCache.Wire

/-- A range of whole numbers that a type stands for. -/
structure IntegerForm (α : Type) where
  name : String
  toInt : α → Int
  ofInt? : Int → Option α
  ofInt?_toInt : ∀ x, ofInt? (toInt x) = some x

mutual

/--
How values of a type are written. A record is described by the nested pair of its fields, an
inductive type by one group of fields for each constructor.
-/
inductive Desc : Type → Type 1
  | text : Desc String
  | flag : Desc Bool
  | integer {α : Type} (form : IntegerForm α) : Desc α
  | any : Desc Json
  | optional {α : Type} (content : Desc α) : Desc (Option α)
  | list {α : Type} (item : Desc α) : Desc (List α)
  /-- An object with arbitrary names. -/
  | map {α : Type} (value : Desc α) : Desc (SortedMap α)
  | enumeration {α : Type} (names : List (String × α)) (nameOf : α → String) : Desc α
  /-- An object with a field for each part, or the array of the parts. -/
  | record {α τ σ : Type} (name : String) (fields : Fields τ σ) (build : τ → α) (parts : α → τ)
      (build_parts : ∀ x, build (parts x) = x) : Desc α
  /-- The fields of a constructor beside a tag; unknown tags stand for `other`. -/
  | tagged {α : Type} (name : String) (variants : Variants α) (other : α) : Desc α
  /-- A tag, and the fields of a constructor in an object of their own. -/
  | adjacent {α : Type} (name : String) (variants : Variants α) : Desc α

/--
Fields in the order of their declaration, as a type of nested pairs `τ` and the type `σ` of the
same pairs while some fields are still missing.
-/
inductive Fields : Type → Type → Type 1
  | nil : Fields Unit Unit
  | cons {β τ σ : Type} (name : String) (value : Desc β) (default : Option β) (rest : Fields τ σ) :
      Fields (β × τ) (Option β × σ)

/-- The constructors of a type, each with its tag and the phrase that messages name it by. -/
inductive Variants : Type → Type 1
  | nil {α : Type} : Variants α
  | cons {α τ σ : Type} (tag label : String) (fields : Fields τ σ) (inject : τ → α)
      (project : α → Option τ) (inject_project : ∀ x t, project x = some t → inject t = x)
      (rest : Variants α) : Variants α

end

/-- The key under which the tag of a tagged type stands. -/
def tagKey : String := "type"

/-- The key under which the fields of an adjacently tagged type stand. -/
def contentKey : String := "payload"

namespace Fields

def length : {τ σ : Type} → Fields τ σ → Nat
  | _, _, .nil => 0
  | _, _, .cons _ _ _ rest => rest.length + 1

def names : {τ σ : Type} → Fields τ σ → List String
  | _, _, .nil => []
  | _, _, .cons name _ _ rest => name :: rest.names

def blank : {τ σ : Type} → Fields τ σ → σ
  | _, _, .nil => ()
  | _, _, .cons _ _ _ rest => (none, rest.blank)

end Fields

namespace Variants

def tags : {α : Type} → Variants α → List String
  | _, .nil => []
  | _, .cons tag _ _ _ _ _ rest => tag :: rest.tags

end Variants

end ThreadCache.Wire
