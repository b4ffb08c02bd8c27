import ThreadCache.Wire.Description

/-!
# Writing

Every field is written, null and defaults included, in the order of declaration.
-/

namespace ThreadCache.Wire

mutual

def Desc.encode : {α : Type} → Desc α → α → Document
  | _, .text, s => .string s
  | _, .flag, b => .bool b
  | _, .integer form, n => .int (form.toInt n)
  | _, .any, v => .ofJson v
  | _, .optional _, none => .null
  | _, .optional content, some x => content.encode x
  | _, .list item, xs => .array (xs.map item.encode)
  | _, .map value, m => .object (m.entries.map fun entry => (some entry.1, value.encode entry.2))
  | _, .enumeration _ nameOf, x => .string (nameOf x)
  | _, .record _ fields _ parts _, x => .object (fields.encode (parts x))
  | _, .tagged _ variants _, x =>
    match variants.encode x with
    | some (tag, entries) => .object ((some tagKey, .string tag) :: entries)
    | none => .null
  | _, .adjacent _ variants, x =>
    match variants.encode x with
    | some (tag, []) => .object [(some tagKey, .string tag)]
    | some (tag, entries) =>
      .object [(some tagKey, .string tag), (some contentKey, .object entries)]
    | none => .null

def Fields.encode : {τ σ : Type} → Fields τ σ → τ → List (Option String × Document)
  | _, _, .nil, _ => []
  | _, _, .cons name value _ rest, (x, xs) => (some name, value.encode x) :: rest.encode xs

def Variants.encode : {α : Type} → Variants α → α →
    Option (String × List (Option String × Document))
  | _, .nil, _ => none
  | _, .cons tag _ fields _ project _ rest, x =>
    match project x with
    | some parts => some (tag, fields.encode parts)
    | none => rest.encode x

end

namespace Desc

variable {α : Type}

def write (d : Desc α) (x : α) : Json := (d.encode x).value

/-- The JSON text of a value, the fields of records in the order of declaration. -/
def writeText (d : Desc α) (x : α) : String := (d.encode x).text

end Desc

end ThreadCache.Wire
