import ThreadCache.Settings
import ThreadCache.Toml.Document

/-!
# Settings in a file

The keys of a settings file and the form of their values. A file may leave out every key, and keys
that mean nothing are passed over.
-/

namespace ThreadCache

open Toml (Item Entries)

namespace Toml.Item

def string? : Item → Option String
  | .string s => some s
  | _ => none

def natural? : Item → Option Nat
  | .int n => if 0 ≤ n then some n.toNat else none
  | _ => none

def word? (item : Item) : Option UInt32 :=
  item.natural?.bind fun n => if n < UInt32.size then some (.ofNat n) else none

def strings? : Item → Option (List String)
  | .array items => items.mapM string?
  | _ => none

end Toml.Item

namespace Toml.Entries

/-- The value under a key, if the key is there; refused if it is there in another form. -/
def optional? (entries : Entries) (key : String) (form : Item → Option α) : Option (Option α) :=
  match Entries.get? entries key with
  | none => some none
  | some item => (form item).map some

end Toml.Entries

namespace Platform

/-- A platform as a table or as the list of its parts, what follows the parts being passed over. -/
def ofItem? : Item → Option Platform
  | .table _ entries => do
    let platform ← (Entries.get? entries "platform").bind Item.string?
    let codeVersion ← Entries.optional? entries "codeVersion" Item.word?
    let stateVersion ← Entries.optional? entries "stateVersion" Item.word?
    return ⟨platform, codeVersion, stateVersion⟩
  | .array (platform :: parts) => do
    let platform ← platform.string?
    let versions ← (parts.take 2).mapM Item.word?
    return ⟨platform, versions[0]?, versions[1]?⟩
  | _ => none

end Platform

namespace Choices

def ofEntries? (entries : Entries) : Option Choices := do
  return {
    databasePath := ← Entries.optional? entries "database_path" Item.string?
    capacity := ← Entries.optional? entries "action_log_capacity" Item.natural?
    uninteresting := ← Entries.optional? entries "uninteresting_actions" Item.strings?
    secrets := ← Entries.optional? entries "redacted_keys" Item.strings?
    platform := ← Entries.optional? entries "platform_details" Platform.ofItem? }

end Choices

namespace Settings

def ofText (text : String) : Except SettingsError Settings :=
  match (Toml.ofText? text).bind Choices.ofEntries? with
  | some choices => ofChoices choices
  | none => .error .malformed

/-- The settings of a file, which is checked by itself before the environment comes in. -/
def load (file : Option String) (env : Environment) : Except SettingsError Settings :=
  match file with
  | none => .error .unreadable
  | some text => (ofText text).bind fun settings => settings.inEnvironment env

end Settings

end ThreadCache
