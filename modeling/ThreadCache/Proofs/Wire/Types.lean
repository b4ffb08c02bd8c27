import ThreadCache.Proofs.Wire.Format
import ThreadCache.Wire.ActionText

/-!
# What travels as JSON comes back

## Main results

* `Action.ofJson_write`: an action is read from its JSON value, which carries its type.
* `WireType.genuine_of_read`: the JSON values inside what is read are genuine.
* `WireType.round_trip`: every value of every wire type is read back from its JSON value, and
  actions also from text; so what is read once is read again after it was written.

## Proof strategy

The descriptions of all wire types are lawful, which reduces the matter to the JSON values inside
other values. Only the action of a report is one. The value of a document is canonical, and a report
takes its action from a document (`report_yields`).
-/

namespace ThreadCache

/-! ### Reports -/

namespace Wire

theorem report_canonical_iff {r : Report} : report.Canonical r ↔ r.action.Canonical := by
  constructor
  · rintro ⟨_, _, _, action, _⟩
    exact action
  · intro action
    exact ⟨trivial, platform.canonical_of_plain rfl r.platform,
      threadMap.canonical_of_plain rfl r.beforeAction, action,
      threadMap.canonical_of_plain rfl r.pushResult,
      (Desc.list actionSummary).canonical_of_plain rfl r.lastActions, trivial, trivial⟩

theorem report_yields : report.Yields := by
  refine Desc.record_yields ?_ fun _ => rfl
  -- No field has a default, and all but the action hold no JSON values.
  exact ⟨Desc.yields_of_plain rfl, nofun, Desc.yields_of_plain rfl, nofun,
    Desc.yields_of_plain rfl, nofun, Desc.any_yields, nofun, Desc.yields_of_plain rfl, nofun,
    Desc.yields_of_plain rfl, nofun, Desc.yields_of_plain rfl, nofun, trivial⟩

end Wire

/-! ### Actions -/

namespace Action

theorem field?_write (a : Action) :
    (Wire.action.write a).field? Wire.tagKey = some (.string a.typeName) := by
  obtain ⟨⟨_, entries⟩, encoded, rfl⟩ := Option.map_eq_some_iff.mp (Wire.actionVariants_encode a)
  exact Wire.Desc.field?_write_tagged "Action" .unrecognized Wire.actionVariants_lawful encoded

/-- An action is read from its JSON value. -/
theorem ofJson_write (a : Action) : ofJson (Wire.action.write a) = .ok a := by
  have canonical := Wire.action.canonical_of_plain rfl a
  rw [ofJson, field?_write]
  simp only [Wire.Desc.read_write Wire.action_lawful canonical]

end Action

/-! ### All wire types -/

namespace Wire.WireType

/--
A value as it can occur: the JSON value inside a report lists the entries of its objects in order,
as every JSON value does that comes from a text (`Json.canonical_of_ofText?`). The other wire types
hold no JSON values.
-/
def Genuine : (t : WireType) → t.Value → Prop
  | .report, (r : Report) => r.action.Canonical
  | _, _ => True

theorem canonical_of_genuine (t : WireType) {x : t.Value} (genuine : t.Genuine x) :
    t.desc.Canonical x := by
  cases t with
  | report => exact report_canonical_iff.mpr genuine
  | _ => exact Desc.canonical_of_plain _ rfl x

theorem genuine_of_read (t : WireType) {v : Json} {x : t.Value} (read : t.desc.read v = .ok x) :
    t.Genuine x := by
  cases t with
  | report => exact report_canonical_iff.mp (report_yields _ _ x read)
  | _ => trivial

/--
Every value of every wire type is read back from the JSON value that it is written as. Every text of
the JSON value of an action is read as the action, and the value has the action's type under the key
of the tag. What was read, from whatever JSON value, is read again after it was written.
-/
theorem round_trip :
    (∀ (t : WireType) (x : t.Value), t.Genuine x → t.desc.read (t.desc.write x) = .ok x) ∧
    (∀ (a : Action) (text : String), Json.ofText? text = some (Wire.action.write a) →
      Action.ofText text = .ok a) ∧
    (∀ a : Action, (Wire.action.write a).field? tagKey = some (.string a.typeName)) ∧
    ∀ (t : WireType) (v : Json) (x : t.Value), t.desc.read v = .ok x →
      t.desc.read (t.desc.write x) = .ok x := by
  have comes_back : ∀ (t : WireType) (x : t.Value), t.Genuine x →
      t.desc.read (t.desc.write x) = .ok x :=
    fun t x genuine => Desc.read_write t.lawful (t.canonical_of_genuine genuine)
  refine ⟨comes_back, fun a text denotes => ?_, Action.field?_write, fun t v x read => ?_⟩
  · rw [Action.ofText, denotes]
    exact a.ofJson_write
  · exact comes_back t x (t.genuine_of_read read)

/--
A report with the JSON value of a text inside, the text of an action that gives its type last, and a
request of a kind that nobody knows.
-/
theorem round_trip_inside :
    (Json.Canonical (.object [("b", .array [.object [("c", .null), ("d", .int 1)]])]) ∧
      report.desc.read (report.desc.write (⟨.threadInconsistency, .standard, ∅,
          .object [("b", .array [.object [("c", .null), ("d", .int 1)]])], ∅, [], 7⟩ : Report)) =
        .ok (⟨.threadInconsistency, .standard, ∅,
          .object [("b", .array [.object [("c", .null), ("d", .int 1)]])], ∅, [], 7⟩ : Report)) ∧
    (Json.ofText?
        "\x7b\"updatesCurrentAsOf\":7, \"rawMessageInfos\":[], \"type\":\"SAVE_MESSAGES\"\x7d" =
      some (Wire.action.write (.saveMessages [] 7)) ∧
      Action.ofText
        "\x7b\"updatesCurrentAsOf\":7, \"rawMessageInfos\":[], \"type\":\"SAVE_MESSAGES\"\x7d" =
      .ok (.saveMessages [] 7)) ∧
    serverRequest.desc.read (.object [("payload", .null), ("type", .string "PING")]) =
      .ok ServerRequest.other ∧
    serverRequest.desc.read (serverRequest.desc.write ServerRequest.other) =
      .ok ServerRequest.other := by
  have inside : Json.ofText? "\x7b\"b\":[\x7b\"d\":1, \"c\":null\x7d]\x7d" =
      some (.object [("b", .array [.object [("c", .null), ("d", .int 1)]])]) := by
    decide +kernel
  have canonical := Json.canonical_of_ofText? inside
  have back := round_trip.1 .report (⟨.threadInconsistency, .standard, ∅,
    .object [("b", .array [.object [("c", .null), ("d", .int 1)]])], ∅, [], 7⟩ : Report) canonical
  have denotes : Json.ofText?
      "\x7b\"updatesCurrentAsOf\":7, \"rawMessageInfos\":[], \"type\":\"SAVE_MESSAGES\"\x7d" =
      some (Wire.action.write (.saveMessages [] 7)) := by
    decide +kernel
  have action_read := round_trip.2.1 _ _ denotes
  have unknown : serverRequest.desc.read (.object [("payload", .null), ("type", .string "PING")]) =
      .ok ServerRequest.other := rfl
  have again := round_trip.2.2.2 .serverRequest _ _ unknown
  exact ⟨⟨canonical, back⟩, ⟨denotes, action_read⟩, unknown, again⟩

end Wire.WireType

end ThreadCache
