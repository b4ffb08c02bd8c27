import ThreadCache.Wire.Decoding
import ThreadCache.Wire.Format

/-!
# Actions as text

An action arrives as JSON text that must be an object with a string as its type tag.
-/

namespace ThreadCache

inductive ActionError
  | notJson
  | missingTag
  | tagNotString
  | shape (cause : Wire.DecodeError)
  deriving DecidableEq

namespace ActionError

def serializationText (message : String) : String := "Serialization error: " ++ message

def validationText (field message : String) : String :=
  "Validation error in field '" ++ field ++ "': " ++ message

/-- The wording; for text that is not JSON it ends where the place of the fault would follow. -/
def message : ActionError → String
  | .notJson => "Serialization error"
  | .missingTag => validationText Wire.tagKey "action has no type tag"
  | .tagNotString => validationText Wire.tagKey "action type must be a string"
  | .shape cause => serializationText ("JSON error: " ++ cause.message)

end ActionError

namespace Action

def ofJson (v : Json) : Except ActionError Action :=
  match v.field? Wire.tagKey with
  | none => .error .missingTag
  | some (.string _) =>
    match Wire.action.read v with
    | .ok action => .ok action
    | .error cause => .error (.shape cause)
  | some _ => .error .tagNotString

def ofText (text : String) : Except ActionError Action :=
  match Json.ofText? text with
  | none => .error .notJson
  | some v => ofJson v

end Action

end ThreadCache
