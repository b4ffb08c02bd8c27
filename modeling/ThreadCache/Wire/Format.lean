import ThreadCache.Action
import ThreadCache.Operation
import ThreadCache.Report
import ThreadCache.Wire.Description

/-!
# The wire format

The description of every type that travels as JSON: threads and what they are made of, update
events, store operations, server requests, actions and reports.
-/

namespace ThreadCache.Wire

/-! ## Whole numbers -/

namespace IntegerForm

/-- The image of a number between bounds. -/
def between {α : Type} (low high : Int) (image : Int → α) (n : Int) : Option α :=
  if low ≤ n ∧ n ≤ high then some (image n) else none

theorem between_of_le {α : Type} {low high n : Int} (image : Int → α) (h1 : low ≤ n)
    (h2 : n ≤ high) : between low high image n = some (image n) := by
  simp [between, h1, h2]

theorem between_uint8 (x : UInt8) :
    between 0 0xff (fun n => UInt8.ofNat n.toNat) x.toNat = some x := by
  have := x.toNat_lt
  rw [between_of_le _ (by omega) (by omega), Int.toNat_natCast, UInt8.ofNat_toNat]

def u8 : IntegerForm UInt8 where
  name := "u8"
  toInt x := x.toNat
  ofInt? := between 0 0xff fun n => .ofNat n.toNat
  ofInt?_toInt := between_uint8

theorem between_uint32 (x : UInt32) :
    between 0 0xffffffff (fun n => UInt32.ofNat n.toNat) x.toNat = some x := by
  have := x.toNat_lt
  rw [between_of_le _ (by omega) (by omega), Int.toNat_natCast, UInt32.ofNat_toNat]

def u32 : IntegerForm UInt32 where
  name := "u32"
  toInt x := x.toNat
  ofInt? := between 0 0xffffffff fun n => .ofNat n.toNat
  ofInt?_toInt := between_uint32

theorem between_uint64 (x : UInt64) :
    between 0 0xffffffffffffffff (fun n => UInt64.ofNat n.toNat) x.toNat = some x := by
  have := x.toNat_lt
  rw [between_of_le _ (by omega) (by omega), Int.toNat_natCast, UInt64.ofNat_toNat]

def usize : IntegerForm UInt64 where
  name := "usize"
  toInt x := x.toNat
  ofInt? := between 0 0xffffffffffffffff fun n => .ofNat n.toNat
  ofInt?_toInt := between_uint64

theorem between_int32 (x : Int32) :
    between (-0x80000000) 0x7fffffff Int32.ofInt x.toInt = some x := by
  have := x.le_toInt
  have := x.toInt_lt
  rw [between_of_le _ (by omega) (by omega), Int32.ofInt_toInt]

def i32 : IntegerForm Int32 where
  name := "i32"
  toInt := Int32.toInt
  ofInt? := between (-0x80000000) 0x7fffffff .ofInt
  ofInt?_toInt := between_int32

theorem between_int64 (x : Int64) :
    between (-0x8000000000000000) 0x7fffffffffffffff Int64.ofInt x.toInt = some x := by
  have := x.le_toInt
  have := x.toInt_lt
  rw [between_of_le _ (by omega) (by omega), Int64.ofInt_toInt]

def i64 : IntegerForm Int64 where
  name := "i64"
  toInt := Int64.toInt
  ofInt? := between (-0x8000000000000000) 0x7fffffffffffffff .ofInt
  ofInt?_toInt := between_int64

end IntegerForm

def time : Desc Int64 := .integer .i64

namespace Fields

variable {β τ σ : Type}

def required (name : String) (value : Desc β) (rest : Fields τ σ) : Fields (β × τ) (Option β × σ) :=
  .cons name value none rest

/-- A field that may be left out for its default. -/
def defaulted (name : String) (value : Desc β) (default : β) (rest : Fields τ σ) :
    Fields (β × τ) (Option β × σ) :=
  .cons name value (some default) rest

/-- A field that may be null or left out. -/
def nullable (name : String) (value : Desc β) (rest : Fields τ σ) :
    Fields (Option β × τ) (Option (Option β) × σ) :=
  .cons name (.optional value) (some none) rest

end Fields

open Fields (required defaulted nullable)

/-! ## Threads -/

def permission : Desc Permission :=
  .record "ThreadPermissionInfo"
    (required "value" .flag <| nullable "source" .text .nil)
    (fun (value, source, ()) => ⟨value, source⟩)
    (fun p => (p.value, p.source, ()))
    (fun _ => rfl)

def member : Desc Member :=
  .record "MemberInfo"
    (required "id" .text <| nullable "role" .text <| defaulted "permissions" (.map permission) ∅ <|
      defaulted "isSender" .flag false .nil)
    (fun (id, role, permissions, isSender, ()) => ⟨id, role, permissions, isSender⟩)
    (fun m => (m.id, m.role, m.permissions, m.isSender, ()))
    (fun _ => rfl)

def role : Desc Role :=
  .record "RoleInfo"
    (required "id" .text <| required "name" .text <| defaulted "permissions" (.map .flag) ∅ <|
      defaulted "isDefault" .flag false .nil)
    (fun (id, name, permissions, isDefault, ()) => ⟨id, name, permissions, isDefault⟩)
    (fun r => (r.id, r.name, r.permissions, r.isDefault, ()))
    (fun _ => rfl)

def subscription : Desc Subscription :=
  .record "ThreadSubscription"
    (required "home" .flag <| required "pushNotifs" .flag .nil)
    (fun (home, pushNotifs, ()) => ⟨home, pushNotifs⟩)
    (fun s => (s.home, s.pushNotifs, ()))
    (fun _ => rfl)

def currentUser : Desc CurrentUser :=
  .record "ThreadCurrentUserInfo"
    (nullable "role" .text <| defaulted "permissions" (.map permission) ∅ <|
      defaulted "subscription" subscription .everywhere <| defaulted "unread" .flag false .nil)
    (fun (role, permissions, subscription, unread, ()) =>
      ⟨role, permissions, subscription, unread⟩)
    (fun u => (u.role, u.permissions, u.subscription, u.unread, ()))
    (fun _ => rfl)

def thread : Desc Thread :=
  .record "RawThreadInfo"
    (required "id" .text <| required "type" (.integer .u8) <| nullable "name" .text <|
      nullable "description" .text <| required "color" .text <| required "creationTime" time <|
      nullable "parentThreadID" .text <| nullable "containingThreadID" .text <|
      nullable "community" .text <| defaulted "members" (.list member) [] <|
      defaulted "roles" (.map role) ∅ <| required "currentUser" currentUser <|
      nullable "sourceMessageID" .text <| defaulted "repliesCount" (.integer .u32) 0 .nil)
    (fun (id, kind, name, description, color, creationTime, parent, container, community, members,
        roles, currentUser, sourceMessage, repliesCount, ()) =>
      ⟨id, kind, name, description, color, creationTime, parent, container, community, members,
        roles, currentUser, sourceMessage, repliesCount⟩)
    (fun t =>
      (t.id, t.kind, t.name, t.description, t.color, t.creationTime, t.parent, t.container,
        t.community, t.members, t.roles, t.currentUser, t.sourceMessage, t.repliesCount, ()))
    (fun _ => rfl)

def threadMap : Desc Store := .map thread

def storeFields := required "threadInfos" threadMap .nil

def store : Desc Store :=
  .record "ThreadStore" storeFields (fun (threads, ()) => threads) (fun s => (s, ())) (fun _ => rfl)

/-! ## Update events -/

def threadEventFields :=
  required "id" .text <| required "time" time <| required "threadInfo" thread .nil

def updateEvent : Desc UpdateEvent :=
  .tagged "ClientUpdateInfo"
    (.cons "UPDATE_THREAD" "struct variant ClientUpdateInfo::UpdateThread" threadEventFields
      (fun (id, time, thread, ()) => .updateThread id time thread)
      (fun | .updateThread id time thread => some (id, time, thread, ()) | _ => none)
      (fun x _ h => by cases x <;> cases h; rfl) <|
    .cons "UPDATE_THREAD_READ_STATUS" "struct variant ClientUpdateInfo::UpdateThreadReadStatus"
      (required "id" .text <| required "time" time <| required "threadID" .text <|
        required "unread" .flag .nil)
      (fun (id, time, threadID, unread, ()) => .updateReadStatus id time threadID unread)
      (fun | .updateReadStatus id time threadID unread => some (id, time, threadID, unread, ())
           | _ => none)
      (fun x _ h => by cases x <;> cases h; rfl) <|
    .cons "DELETE_THREAD" "struct variant ClientUpdateInfo::DeleteThread"
      (required "id" .text <| required "time" time <| required "threadID" .text .nil)
      (fun (id, time, threadID, ()) => .deleteThread id time threadID)
      (fun | .deleteThread id time threadID => some (id, time, threadID, ()) | _ => none)
      (fun x _ h => by cases x <;> cases h; rfl) <|
    .cons "DELETE_ACCOUNT" "struct variant ClientUpdateInfo::DeleteAccount"
      (required "id" .text <| required "time" time <| required "deletedUserID" .text .nil)
      (fun (id, time, userID, ()) => .deleteAccount id time userID)
      (fun | .deleteAccount id time userID => some (id, time, userID, ()) | _ => none)
      (fun x _ h => by cases x <;> cases h; rfl) <|
    .cons "JOIN_THREAD" "struct variant ClientUpdateInfo::JoinThread" threadEventFields
      (fun (id, time, thread, ()) => .joinThread id time thread)
      (fun | .joinThread id time thread => some (id, time, thread, ()) | _ => none)
      (fun x _ h => by cases x <;> cases h; rfl) <|
    .cons "UNHANDLED" "unit variant ClientUpdateInfo::Unhandled" .nil
      (fun () => .unhandled)
      (fun | .unhandled => some () | _ => none)
      (fun x _ h => by cases x <;> cases h; rfl)
    .nil)
    .unhandled

def updatesResult : Desc UpdatesResult :=
  .record "UpdatesResult"
    (defaulted "currentAsOf" time 0 <| required "newUpdates" (.list updateEvent) .nil)
    (fun (currentAsOf, events, ()) => ⟨currentAsOf, events⟩)
    (fun r => (r.currentAsOf, r.events, ()))
    (fun _ => rfl)

/-! ## Store operations -/

def operation : Desc StoreOperation :=
  .adjacent "ThreadStoreOperation"
    (.cons "replace" "struct variant ThreadStoreOperation::Replace"
      (required "id" .text <| required "threadInfo" thread .nil)
      (fun (id, thread, ()) => .replace id thread)
      (fun | .replace id thread => some (id, thread, ()) | _ => none)
      (fun x _ h => by cases x <;> cases h; rfl) <|
    .cons "remove" "struct variant ThreadStoreOperation::Remove"
      (required "ids" (.list .text) .nil)
      (fun (ids, ()) => .remove ids)
      (fun | .remove ids => some (ids, ()) | _ => none)
      (fun x _ h => by cases x <;> cases h; rfl) <|
    .cons "remove_all" "unit variant ThreadStoreOperation::RemoveAll" .nil
      (fun () => .removeAll)
      (fun | .removeAll => some () | _ => none)
      (fun x _ h => by cases x <;> cases h; rfl)
    .nil)

/-! ## Server requests -/

def stateChanges : Desc StateChanges :=
  .record "StateChanges"
    (nullable "rawThreadInfos" (.list thread) <| nullable "deleteThreadIDs" (.list .text) .nil)
    (fun (threads, deleteIDs, ()) => ⟨threads, deleteIDs⟩)
    (fun c => (c.threads, c.deleteIDs, ()))
    (fun _ => rfl)

def serverRequest : Desc ServerRequest :=
  .tagged "ServerRequest"
    (.cons "CHECK_STATE" "struct variant ServerRequest::CheckState"
      (defaulted "hashesToCheck" (.map time) ∅ <| nullable "stateChanges" stateChanges .nil)
      (fun (hashes, changes, ()) => .checkState hashes changes)
      (fun | .checkState hashes changes => some (hashes, changes, ()) | _ => none)
      (fun x _ h => by cases x <;> cases h; rfl) <|
    .cons "OTHER" "unit variant ServerRequest::Other" .nil
      (fun () => .other)
      (fun | .other => some () | _ => none)
      (fun x _ h => by cases x <;> cases h; rfl)
    .nil)
    .other

/-! ## Actions -/

def sessionChange : Desc SessionChange :=
  .record "SessionChange"
    (required "cookieInvalidated" .flag <| nullable "cookie" .text .nil)
    (fun (cookieInvalidated, cookie, ()) => ⟨cookieInvalidated, cookie⟩)
    (fun c => (c.cookieInvalidated, c.cookie, ()))
    (fun _ => rfl)

def messageInfo : Desc MessageInfo :=
  .record "RawMessageInfo"
    (nullable "id" .text <| required "threadID" .text <| required "time" time .nil)
    (fun (id, threadID, time, ()) => ⟨id, threadID, time⟩)
    (fun m => (m.id, m.threadID, m.time, ()))
    (fun _ => rfl)

/-- The list of threads that stands inside the result of an activity update. -/
def activityResult : Desc (List String) :=
  .record "UpdateActivityResult" (required "unfocusedToUnread" (.list .text) .nil)
    (fun (ids, ()) => ids) (fun ids => (ids, ())) (fun _ => rfl)

def fullSyncVariant (kind : FullSyncKind) (rest : Variants Action) : Variants Action :=
  .cons kind.name "struct FullSyncPayload"
    (required "threadInfos" threadMap <| defaulted "updatesCurrentAsOf" time 0 .nil)
    (fun (threads, currentAsOf, ()) => .fullSync kind ⟨threads, currentAsOf⟩)
    (fun | .fullSync k p => if k = kind then some (p.threads, p.currentAsOf, ()) else none
         | _ => none)
    (fun x _ h => by
      cases x
      case fullSync k p => cases p; grind
      all_goals cases h)
    rest

def endSessionVariant (kind : SessionEnd) (rest : Variants Action) : Variants Action :=
  .cons kind.name "unit variant" .nil
    (fun () => .endSession kind)
    (fun | .endSession k => if k = kind then some () else none
         | _ => none)
    (fun x _ h => by cases x <;> grind)
    rest

def updatesVariant (kind : UpdatesKind) (rest : Variants Action) : Variants Action :=
  .cons kind.name "struct UpdatesPayload"
    (required "updatesResult" updatesResult .nil)
    (fun (result, ()) => .updates kind result)
    (fun | .updates k result => if k = kind then some (result, ()) else none
         | _ => none)
    (fun x _ h => by cases x <;> grind)
    rest

def actionVariants : Variants Action :=
  fullSyncVariant .logIn <| fullSyncVariant .register <| fullSyncVariant .fullState <|
  endSessionVariant .logOut <| endSessionVariant .deleteAccount <|
  .cons "SET_NEW_SESSION" "struct SetNewSessionPayload"
    (required "sessionChange" sessionChange .nil)
    (fun (change, ()) => .setNewSession change)
    (fun | .setNewSession change => some (change, ()) | _ => none)
    (fun x _ h => by cases x <;> cases h; rfl) <|
  updatesVariant .joinThread <| updatesVariant .leaveThread <| updatesVariant .deleteThread <|
  updatesVariant .changeThreadSettings <| updatesVariant .removeUsersFromThread <|
  updatesVariant .changeThreadMemberRoles <| updatesVariant .incrementalSync <|
  updatesVariant .processUpdates <| updatesVariant .newThread <|
  .cons "UPDATE_SUBSCRIPTION_SUCCESS" "struct SubscriptionUpdatePayload"
    (required "threadID" .text <| required "subscription" subscription .nil)
    (fun (threadID, subscription, ()) => .updateSubscription threadID subscription)
    (fun | .updateSubscription threadID subscription => some (threadID, subscription, ())
         | _ => none)
    (fun x _ h => by cases x <;> cases h; rfl) <|
  .cons "SAVE_MESSAGES" "struct SaveMessagesPayload"
    (required "rawMessageInfos" (.list messageInfo) <| required "updatesCurrentAsOf" time .nil)
    (fun (messages, currentAsOf, ()) => .saveMessages messages currentAsOf)
    (fun | .saveMessages messages currentAsOf => some (messages, currentAsOf, ()) | _ => none)
    (fun x _ h => by cases x <;> cases h; rfl) <|
  .cons "PROCESS_SERVER_REQUESTS" "struct ProcessServerRequestsPayload"
    (required "serverRequests" (.list serverRequest) .nil)
    (fun (requests, ()) => .processServerRequests requests)
    (fun | .processServerRequests requests => some (requests, ()) | _ => none)
    (fun x _ h => by cases x <;> cases h; rfl) <|
  .cons "UPDATE_ACTIVITY_SUCCESS" "struct UpdateActivityPayload"
    (required "result" activityResult .nil)
    (fun (ids, ()) => .updateActivity ids)
    (fun | .updateActivity ids => some (ids, ()) | _ => none)
    (fun x _ h => by cases x <;> cases h; rfl) <|
  .cons "SET_THREAD_UNREAD_STATUS_STARTED" "struct SetThreadUnreadStatusPayload"
    (required "threadID" .text <| required "unread" .flag .nil)
    (fun (threadID, unread, ()) => .startUnreadStatus threadID unread)
    (fun | .startUnreadStatus threadID unread => some (threadID, unread, ()) | _ => none)
    (fun x _ h => by cases x <;> cases h; rfl) <|
  .cons "SET_THREAD_UNREAD_STATUS_SUCCESS" "struct SetThreadUnreadStatusResult"
    (required "threadID" .text <| required "resetToUnread" .flag .nil)
    (fun (threadID, reset, ()) => .confirmUnreadStatus threadID reset)
    (fun | .confirmUnreadStatus threadID reset => some (threadID, reset, ()) | _ => none)
    (fun x _ h => by cases x <;> cases h; rfl) <|
  .cons "SET_THREAD_STORE" "struct ThreadStore" storeFields
    (fun (store, ()) => .setThreadStore store)
    (fun | .setThreadStore store => some (store, ()) | _ => none)
    (fun x _ h => by cases x <;> cases h; rfl) <|
  .cons "UNRECOGNIZED" "unit variant" .nil
    (fun () => .unrecognized)
    (fun | .unrecognized => some () | _ => none)
    (fun x _ h => by cases x <;> cases h; rfl)
  .nil

def action : Desc Action := .tagged "Action" actionVariants .unrecognized

/-! ## Reports -/

def platform : Desc Platform :=
  .record "PlatformDetails"
    (required "platform" .text <| nullable "codeVersion" (.integer .u32) <|
      nullable "stateVersion" (.integer .u32) .nil)
    (fun (platform, codeVersion, stateVersion, ()) => ⟨platform, codeVersion, stateVersion⟩)
    (fun p => (p.platform, p.codeVersion, p.stateVersion, ()))
    (fun _ => rfl)

def actionSummary : Desc ActionSummary :=
  .record "ActionSummary"
    (required "type" .text <| required "time" time <| required "summary" .text .nil)
    (fun (typeName, time, summary, ()) => ⟨typeName, time, summary⟩)
    (fun s => (s.typeName, s.time, s.summary, ()))
    (fun _ => rfl)

def reportKind : Desc ReportKind :=
  .enumeration [(ReportKind.threadInconsistency.name, .threadInconsistency)] ReportKind.name

def report : Desc Report :=
  .record "ClientThreadInconsistencyReport"
    (required "type" reportKind <| required "platformDetails" platform <|
      required "beforeAction" threadMap <| required "action" .any <|
      required "pushResult" threadMap <| required "lastActions" (.list actionSummary) <|
      required "time" time .nil)
    (fun (kind, platform, beforeAction, action, pushResult, lastActions, time, ()) =>
      ⟨kind, platform, beforeAction, action, pushResult, lastActions, time⟩)
    (fun r =>
      (r.kind, r.platform, r.beforeAction, r.action, r.pushResult, r.lastActions, r.time, ()))
    (fun _ => rfl)

/-! ## All wire types -/

inductive WireType
  | thread
  | member
  | role
  | permission
  | subscription
  | currentUser
  | store
  | updateEvent
  | updatesResult
  | operation
  | serverRequest
  | action
  | platform
  | actionSummary
  | report
  deriving DecidableEq, Repr

namespace WireType

def Value : WireType → Type
  | .thread => Thread
  | .member => Member
  | .role => Role
  | .permission => Permission
  | .subscription => Subscription
  | .currentUser => CurrentUser
  | .store => Store
  | .updateEvent => UpdateEvent
  | .updatesResult => UpdatesResult
  | .operation => StoreOperation
  | .serverRequest => ServerRequest
  | .action => Action
  | .platform => Platform
  | .actionSummary => ActionSummary
  | .report => Report

def desc : (t : WireType) → Desc t.Value
  | .thread => Wire.thread
  | .member => Wire.member
  | .role => Wire.role
  | .permission => Wire.permission
  | .subscription => Wire.subscription
  | .currentUser => Wire.currentUser
  | .store => Wire.store
  | .updateEvent => Wire.updateEvent
  | .updatesResult => Wire.updatesResult
  | .operation => Wire.operation
  | .serverRequest => Wire.serverRequest
  | .action => Wire.action
  | .platform => Wire.platform
  | .actionSummary => Wire.actionSummary
  | .report => Wire.report

end WireType

end ThreadCache.Wire
