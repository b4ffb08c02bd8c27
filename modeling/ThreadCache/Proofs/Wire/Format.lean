import ThreadCache.Proofs.Wire.RoundTrip

/-!
# The wire format is lawful

## Main results

`WireType.lawful`: the description of every wire type is lawful, so that what is written can be
read.

## Proof strategy

Type by type from the inside out, by unfolding the description: names are compared by computation,
and a constructor that a description misses would show as a value that is not written.
-/

namespace ThreadCache.Wire

attribute [simp] Fields.required Fields.defaulted Fields.nullable Fields.names Variants.tags
  Desc.Lawful Fields.Lawful Variants.Lawful

/-! ### Threads -/

@[simp] theorem permission_lawful : permission.Lawful := by
  simp [permission, Desc.encode]

@[simp] theorem member_lawful : member.Lawful := by
  simp [member, Desc.encode]

@[simp] theorem role_lawful : role.Lawful := by
  simp [role]

@[simp] theorem subscription_lawful : subscription.Lawful := by
  simp [subscription]

@[simp] theorem currentUser_lawful : currentUser.Lawful := by
  simp [currentUser, Desc.encode]

@[simp] theorem thread_lawful : thread.Lawful := by
  simp [thread, time, Desc.encode]

@[simp] theorem store_lawful : store.Lawful := by
  simp [store, storeFields, threadMap]

/-! ### Events, operations and requests -/

@[simp] theorem updateEvent_lawful : updateEvent.Lawful := by
  refine ⟨?_, fun x => ?_⟩
  · simp [threadEventFields, time, tagKey]
  · cases x <;> simp [Variants.encode]

@[simp] theorem updatesResult_lawful : updatesResult.Lawful := by
  simp [updatesResult, time]

@[simp] theorem operation_lawful : operation.Lawful := by
  refine ⟨?_, fun x => ?_⟩
  · simp [tagKey]
  · cases x <;> simp [Variants.encode]

@[simp] theorem stateChanges_lawful : stateChanges.Lawful := by
  simp [stateChanges, Desc.encode]

@[simp] theorem serverRequest_lawful : serverRequest.Lawful := by
  refine ⟨?_, fun x => ?_⟩
  · simp [time, tagKey, stateChanges, Desc.encode]
  · cases x <;> simp [Variants.encode]

/-! ### Actions -/

@[simp] theorem sessionChange_lawful : sessionChange.Lawful := by
  simp [sessionChange, Desc.encode]

@[simp] theorem messageInfo_lawful : messageInfo.Lawful := by
  simp [messageInfo, time, Desc.encode]

theorem actionVariants_lawful : actionVariants.Lawful := by
  simp [actionVariants, fullSyncVariant, endSessionVariant, updatesVariant, time, tagKey, threadMap,
    activityResult, FullSyncKind.name, SessionEnd.name, UpdatesKind.name, storeFields]

/-- An action is written under its own tag. -/
theorem actionVariants_encode (a : Action) :
    (actionVariants.encode a).map (·.1) = some a.typeName := by
  -- The kinds of one constructor have tags of their own, so they are told apart one by one.
  cases a with
  | fullSync kind payload =>
    cases kind <;> simp [actionVariants, fullSyncVariant, Variants.encode, Action.typeName]
  | endSession kind =>
    cases kind <;>
      simp [actionVariants, fullSyncVariant, endSessionVariant, Variants.encode, Action.typeName]
  | updates kind result =>
    cases kind <;>
      simp [actionVariants, fullSyncVariant, endSessionVariant, updatesVariant, Variants.encode,
        Action.typeName]
  | _ =>
    simp [actionVariants, fullSyncVariant, endSessionVariant, updatesVariant, Variants.encode,
      Action.typeName]

theorem action_lawful : action.Lawful := by
  refine ⟨actionVariants_lawful, fun a absent => ?_⟩
  have tagged := actionVariants_encode a
  rw [absent] at tagged
  cases tagged

/-! ### Reports -/

@[simp] theorem platform_lawful : platform.Lawful := by
  simp [platform, Desc.encode]

@[simp] theorem actionSummary_lawful : actionSummary.Lawful := by
  simp [actionSummary, time]

@[simp] theorem reportKind_lawful : reportKind.Lawful := by
  intro kind
  cases kind
  exact ⟨_, rfl⟩

theorem report_lawful : report.Lawful := by
  simp [report, threadMap, time]

/-- Every wire type has a lawful description. -/
theorem WireType.lawful (t : WireType) : t.desc.Lawful := by
  cases t with
  | thread => exact thread_lawful
  | member => exact member_lawful
  | role => exact role_lawful
  | permission => exact permission_lawful
  | subscription => exact subscription_lawful
  | currentUser => exact currentUser_lawful
  | store => exact store_lawful
  | updateEvent => exact updateEvent_lawful
  | updatesResult => exact updatesResult_lawful
  | operation => exact operation_lawful
  | serverRequest => exact serverRequest_lawful
  | action => exact action_lawful
  | platform => exact platform_lawful
  | actionSummary => exact actionSummary_lawful
  | report => exact report_lawful

end ThreadCache.Wire
