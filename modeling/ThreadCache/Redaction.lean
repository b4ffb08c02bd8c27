import ThreadCache.Json.Basic

/-!
# Redaction

Before an action is shown to anyone, the value under every secret name is masked, at any depth of
its JSON form.
-/

namespace ThreadCache

/-- What stands in place of a secret. -/
def mask : String := "********"

mutual

/-- The value with everything under a secret name masked. -/
def redact (secrets : List String) : Json → Json
  | .array items => .array (redactItems secrets items)
  | .object entries => .object (redactEntries secrets entries)
  | v => v

def redactItems (secrets : List String) : List Json → List Json
  | [] => []
  | item :: rest => redact secrets item :: redactItems secrets rest

def redactEntries (secrets : List String) : List (String × Json) → List (String × Json)
  | [] => []
  | (name, v) :: rest =>
    (name, if name ∈ secrets then .string mask else redact secrets v) :: redactEntries secrets rest

end

end ThreadCache
