import ThreadCache.Cache.Row
import ThreadCache.Proofs.Wire.Format

/-!
# Rows keep their threads

## Main results

* `Row.thread_ofThread`: the row that keeps a thread under a name gives the thread back, under that
  name and with nothing else changed.
* `Row.thread_eq_error_iff`: the error of a row that gives no thread is its first fault.
* `Row.kept_or_faulty`: a row has a number out of range, or else a column that cannot be read, or
  else gives a thread that can be kept and read any number of times.

## Proof strategy

The numbers of a thread fit their columns with room to spare. The columns of text are written from
descriptions without numbers, so the text reads back as the value (`Desc.readText_writeText`). For
the rows that nobody wrote from a thread, reading is taken apart into its five steps, each of which
fails or leads to the next one.
-/

namespace ThreadCache

namespace Cache

namespace Row

open Wire (Desc Fields)

/-! ### Columns of text -/

theorem readColumn_writeText {α : Type} {desc : Desc α} (lawful : desc.Lawful)
    (textual : desc.Textual) (x : α) : readColumn desc (desc.writeText x) = .ok x := by
  rw [readColumn, Desc.readText_writeText lawful textual x]

theorem membersDesc_lawful : membersDesc.Lawful := Wire.member_lawful

theorem membersDesc_textual : membersDesc.Textual := by
  simp [membersDesc, Wire.member, Wire.permission, Desc.Textual, Fields.Textual]

theorem rolesDesc_lawful : rolesDesc.Lawful := Wire.role_lawful

theorem rolesDesc_textual : rolesDesc.Textual := by
  simp [rolesDesc, Wire.role, Desc.Textual, Fields.Textual]

theorem currentUser_textual : Wire.currentUser.Textual := by
  simp [Wire.currentUser, Wire.permission, Wire.subscription, Desc.Textual, Fields.Textual]

/-! ### Numbers -/

/-- A number that fits its column is read back. -/
theorem narrow_ofNat {α : Type} {form : Wire.IntegerForm α} {x : α} {n : Nat}
    (value : form.toInt x = n) (small : n < 0x8000000000000000) (fault : RowError) :
    narrow form fault (.ofNat n) = .ok x := by
  -- A column holds 64 bits with a sign, which is more than any number of a thread needs.
  have fits := form.ofInt?_toInt x
  rw [value] at fits
  rw [narrow, Int64.toInt_ofNat_of_lt small, fits]

theorem narrow_kind (kind : UInt8) (fault : RowError) :
    narrow .u8 fault (.ofNat kind.toNat) = .ok kind := by
  have bound := kind.toNat_lt
  exact narrow_ofNat rfl (by omega) fault

theorem narrow_repliesCount (count : UInt32) (fault : RowError) :
    narrow .u32 fault (.ofNat count.toNat) = .ok count := by
  have bound := count.toNat_lt
  exact narrow_ofNat rfl (by omega) fault

/-! ### Rows -/

/-- A thread that was kept under a name comes back under the name. -/
theorem thread_ofThread (id : String) (t : Thread) :
    (ofThread id t).thread = .ok { t with id := id } := by
  have kind := fun fault => narrow_kind t.kind fault
  have repliesCount := fun fault => narrow_repliesCount t.repliesCount fault
  -- The columns of text go through JSON and come back.
  have members := readColumn_writeText membersDesc_lawful membersDesc_textual t.members
  have roles := readColumn_writeText rolesDesc_lawful rolesDesc_textual t.roles
  have currentUser :=
    readColumn_writeText Wire.currentUser_lawful currentUser_textual t.currentUser
  rw [thread]
  simp only [ofThread, kind, repliesCount, members, roles, currentUser]
  rfl

theorem id_of_thread {row : Row} {t : Thread} (read : row.thread = .ok t) : t.id = row.id := by
  -- Whatever the other columns gave, the thread was built with the id of the row.
  simp only [thread, bind_eq_ok_iff] at read
  obtain ⟨_, _, _, _, _, _, _, _, _, _, built⟩ := read
  cases built
  rfl

/-- A thread that was read is the same when it is kept under its id again. -/
theorem thread_ofThread_of_thread {row : Row} {t : Thread} (read : row.thread = .ok t) :
    (ofThread row.id t).thread = .ok t := by
  rw [thread_ofThread, ← id_of_thread read]

/-! ### One step of reading -/

section

variable {α : Type} {form : Wire.IntegerForm α} {low high : Int} {image : Int → α}
  {fault e : RowError} {n : Int64}

theorem narrow_eq (range : form.ofInt? = Wire.IntegerForm.between low high image) :
    narrow form fault n =
      if low ≤ n.toInt ∧ n.toInt ≤ high then .ok (image n.toInt) else .error fault := by
  rw [narrow, range, Wire.IntegerForm.between]
  by_cases inside : low ≤ n.toInt ∧ n.toInt ≤ high
  · rw [if_pos inside, if_pos inside]
  · rw [if_neg inside, if_neg inside]

theorem exists_narrow_iff (range : form.ofInt? = Wire.IntegerForm.between low high image) :
    (∃ x, narrow form fault n = .ok x) ↔ low ≤ n.toInt ∧ n.toInt ≤ high := by
  rw [narrow_eq range]
  split
  next inside => simp [inside]
  next outside => simp [outside]

theorem narrow_eq_error_iff (range : form.ofInt? = Wire.IntegerForm.between low high image) :
    narrow form fault n = .error e ↔ ¬ (low ≤ n.toInt ∧ n.toInt ≤ high) ∧ e = fault := by
  rw [narrow_eq range]
  split
  next inside => simp [inside]
  next outside => simp [outside, eq_comm]

end

theorem readColumn_eq_error_iff {α : Type} {desc : Desc α} {text : String} {e : RowError} :
    readColumn desc text = .error e ↔
      ∃ cause, desc.readText text = .error cause ∧ e = .column cause := by
  rw [readColumn]
  cases desc.readText text with
  | ok x => simp
  | error cause => simp [eq_comm]

theorem readColumn_eq_ok_iff {α : Type} {desc : Desc α} {text : String} {x : α} :
    readColumn desc text = .ok x ↔ desc.readText text = .ok x := by
  rw [readColumn]
  cases desc.readText text with
  | ok y => simp
  | error cause => simp

end Row

/-! ### Faults -/

/-- The error tells of a number out of range, and not of text that cannot be read. -/
def RowError.isCorrupt : RowError → Bool
  | .kindOutOfRange .. => true
  | .repliesCountOutOfRange .. => true
  | .column _ => false

namespace Row

def KindFits (row : Row) : Prop := 0 ≤ row.kind.toInt ∧ row.kind.toInt ≤ 255

def RepliesCountFits (row : Row) : Prop :=
  0 ≤ row.repliesCount.toInt ∧ row.repliesCount.toInt ≤ 4294967295

/-- The numbers of the row are in the ranges that those of a thread have. -/
structure NumbersFit (row : Row) : Prop where
  kind : row.KindFits
  repliesCount : row.RepliesCountFits

/-- Every column of JSON text can be read. -/
structure TextReads (row : Row) : Prop where
  members : ∃ members, membersDesc.readText row.members = .ok members
  roles : ∃ roles, rolesDesc.readText row.roles = .ok roles
  currentUser : ∃ currentUser, Wire.currentUser.readText row.currentUser = .ok currentUser

/--
The first fault of a row: the kind or else the count of replies is out of range, or else it is that
of the first column of text that cannot be read.
-/
inductive Fault (row : Row) : RowError → Prop
  | kind (outside : ¬ row.KindFits) : Fault row (.kindOutOfRange row.id row.kind)
  | repliesCount (kind : row.KindFits) (outside : ¬ row.RepliesCountFits) :
      Fault row (.repliesCountOutOfRange row.id row.repliesCount)
  | members {cause : Wire.DecodeError} (numbers : row.NumbersFit)
      (unread : membersDesc.readText row.members = .error cause) : Fault row (.column cause)
  | roles {cause : Wire.DecodeError} {members : List Member} (numbers : row.NumbersFit)
      (before : membersDesc.readText row.members = .ok members)
      (unread : rolesDesc.readText row.roles = .error cause) : Fault row (.column cause)
  | currentUser {cause : Wire.DecodeError} {members : List Member} {roles : SortedMap Role}
      (numbers : row.NumbersFit) (first : membersDesc.readText row.members = .ok members)
      (second : rolesDesc.readText row.roles = .ok roles)
      (unread : Wire.currentUser.readText row.currentUser = .error cause) :
      Fault row (.column cause)

section

variable {row : Row} {e : RowError}

theorem narrow_kind_eq_error_iff :
    narrow .u8 (.kindOutOfRange row.id row.kind) row.kind = .error e ↔
      ¬ row.KindFits ∧ e = .kindOutOfRange row.id row.kind :=
  narrow_eq_error_iff rfl

theorem exists_narrow_kind_iff :
    (∃ kind, narrow .u8 (.kindOutOfRange row.id row.kind) row.kind = .ok kind) ↔ row.KindFits :=
  exists_narrow_iff rfl

theorem narrow_repliesCount_eq_error_iff :
    narrow .u32 (.repliesCountOutOfRange row.id row.repliesCount) row.repliesCount = .error e ↔
      ¬ row.RepliesCountFits ∧ e = .repliesCountOutOfRange row.id row.repliesCount :=
  narrow_eq_error_iff rfl

theorem exists_narrow_repliesCount_iff :
    (∃ count, narrow .u32 (.repliesCountOutOfRange row.id row.repliesCount) row.repliesCount =
      .ok count) ↔ row.RepliesCountFits :=
  exists_narrow_iff rfl

/-- The error of a row that gives no thread is its first fault. -/
theorem thread_eq_error_iff : row.thread = .error e ↔ row.Fault e := by
  simp only [thread, bind_eq_error_iff]
  constructor
  -- The error comes from the first step that fails, so those before it have succeeded.
  · rintro (kind | ⟨kind, read, failed⟩)
    · obtain ⟨outside, rfl⟩ := narrow_kind_eq_error_iff.mp kind
      exact .kind outside
    have kind := exists_narrow_kind_iff.mp ⟨kind, read⟩
    rcases failed with count | ⟨count, read, failed⟩
    · obtain ⟨outside, rfl⟩ := narrow_repliesCount_eq_error_iff.mp count
      exact .repliesCount kind outside
    have numbers : row.NumbersFit := ⟨kind, exists_narrow_repliesCount_iff.mp ⟨count, read⟩⟩
    rcases failed with members | ⟨_, members, failed⟩
    · obtain ⟨cause, unread, rfl⟩ := readColumn_eq_error_iff.mp members
      exact .members numbers unread
    have members := readColumn_eq_ok_iff.mp members
    rcases failed with roles | ⟨_, roles, failed⟩
    · obtain ⟨cause, unread, rfl⟩ := readColumn_eq_error_iff.mp roles
      exact .roles numbers members unread
    have roles := readColumn_eq_ok_iff.mp roles
    rcases failed with currentUser | ⟨_, _, built⟩
    · obtain ⟨cause, unread, rfl⟩ := readColumn_eq_error_iff.mp currentUser
      exact .currentUser numbers members roles unread
    · cases built
  · intro fault
    cases fault with
    | kind outside => exact .inl (narrow_kind_eq_error_iff.mpr ⟨outside, rfl⟩)
    | repliesCount kind outside =>
      obtain ⟨kind, read⟩ := exists_narrow_kind_iff.mpr kind
      have failed := narrow_repliesCount_eq_error_iff.mpr ⟨outside, rfl⟩
      exact .inr ⟨kind, read, .inl failed⟩
    | members numbers unread =>
      obtain ⟨kind, kind_read⟩ := exists_narrow_kind_iff.mpr numbers.kind
      obtain ⟨count, count_read⟩ := exists_narrow_repliesCount_iff.mpr numbers.repliesCount
      have failed := readColumn_eq_error_iff.mpr ⟨_, unread, rfl⟩
      exact .inr ⟨kind, kind_read, .inr ⟨count, count_read, .inl failed⟩⟩
    | roles numbers before unread =>
      obtain ⟨kind, kind_read⟩ := exists_narrow_kind_iff.mpr numbers.kind
      obtain ⟨count, count_read⟩ := exists_narrow_repliesCount_iff.mpr numbers.repliesCount
      have members := readColumn_eq_ok_iff.mpr before
      have failed := readColumn_eq_error_iff.mpr ⟨_, unread, rfl⟩
      exact .inr ⟨kind, kind_read, .inr ⟨count, count_read, .inr ⟨_, members, .inl failed⟩⟩⟩
    | currentUser numbers first second unread =>
      obtain ⟨kind, kind_read⟩ := exists_narrow_kind_iff.mpr numbers.kind
      obtain ⟨count, count_read⟩ := exists_narrow_repliesCount_iff.mpr numbers.repliesCount
      have members := readColumn_eq_ok_iff.mpr first
      have roles := readColumn_eq_ok_iff.mpr second
      have failed := readColumn_eq_error_iff.mpr ⟨_, unread, rfl⟩
      exact .inr ⟨kind, kind_read, .inr ⟨count, count_read,
        .inr ⟨_, members, .inr ⟨_, roles, .inl failed⟩⟩⟩⟩

theorem Fault.isCorrupt_iff (fault : row.Fault e) : e.isCorrupt ↔ ¬ row.NumbersFit := by
  cases fault with
  | kind outside => exact iff_of_true rfl fun numbers => outside numbers.kind
  | repliesCount _ outside => exact iff_of_true rfl fun numbers => outside numbers.repliesCount
  | members numbers _ => exact iff_of_false nofun (not_not_intro numbers)
  | roles numbers _ _ => exact iff_of_false nofun (not_not_intro numbers)
  | currentUser numbers _ _ _ => exact iff_of_false nofun (not_not_intro numbers)

theorem Fault.of_column {cause : Wire.DecodeError} (fault : row.Fault (.column cause)) :
    row.NumbersFit ∧ ¬ row.TextReads := by
  -- A column that can be read has no fault.
  cases fault with
  | members numbers unread =>
    refine ⟨numbers, fun text => ?_⟩
    obtain ⟨_, read⟩ := text.members
    cases read.symm.trans unread
  | roles numbers _ unread =>
    refine ⟨numbers, fun text => ?_⟩
    obtain ⟨_, read⟩ := text.roles
    cases read.symm.trans unread
  | currentUser numbers _ _ unread =>
    refine ⟨numbers, fun text => ?_⟩
    obtain ⟨_, read⟩ := text.currentUser
    cases read.symm.trans unread

/-- A row with its numbers in range has no other fault than one of its text. -/
theorem Fault.exists_cause (fault : row.Fault e) (numbers : row.NumbersFit) :
    ∃ cause, e = .column cause := by
  cases fault with
  | kind outside => exact absurd numbers.kind outside
  | repliesCount _ outside => exact absurd numbers.repliesCount outside
  | members => exact ⟨_, rfl⟩
  | roles => exact ⟨_, rfl⟩
  | currentUser => exact ⟨_, rfl⟩

theorem exists_thread_iff : (∃ t, row.thread = .ok t) ↔ row.NumbersFit ∧ row.TextReads := by
  constructor
  · rintro ⟨t, read⟩
    simp only [thread, bind_eq_ok_iff, readColumn_eq_ok_iff] at read
    obtain ⟨kind, kind_read, count, count_read, members, members_read, roles, roles_read,
      currentUser, currentUser_read, _⟩ := read
    exact ⟨⟨exists_narrow_kind_iff.mp ⟨kind, kind_read⟩,
        exists_narrow_repliesCount_iff.mp ⟨count, count_read⟩⟩,
      ⟨members, members_read⟩, ⟨roles, roles_read⟩, ⟨currentUser, currentUser_read⟩⟩
  · rintro ⟨numbers, text⟩
    cases read : row.thread with
    | ok t => exact ⟨t, rfl⟩
    | error e =>
      have fault := thread_eq_error_iff.mp read
      obtain ⟨cause, rfl⟩ := fault.exists_cause numbers
      exact absurd text fault.of_column.2

/-- The row is corrupt if a number is out of range, whatever the text is. -/
theorem corrupt_iff : (∃ e, row.thread = .error e ∧ e.isCorrupt) ↔ ¬ row.NumbersFit := by
  constructor
  · rintro ⟨e, failed, corrupt⟩
    exact (thread_eq_error_iff.mp failed).isCorrupt_iff.mp corrupt
  · intro outside
    cases read : row.thread with
    | ok t => exact absurd (exists_thread_iff.mp ⟨t, read⟩).1 outside
    | error e => exact ⟨e, rfl, (thread_eq_error_iff.mp read).isCorrupt_iff.mpr outside⟩

theorem unreadable_iff :
    (∃ cause, row.thread = .error (.column cause)) ↔ row.NumbersFit ∧ ¬ row.TextReads := by
  constructor
  · rintro ⟨cause, failed⟩
    exact (thread_eq_error_iff.mp failed).of_column
  · rintro ⟨numbers, text⟩
    cases read : row.thread with
    | ok t => exact absurd (exists_thread_iff.mp ⟨t, read⟩).2 text
    | error e =>
      obtain ⟨cause, rfl⟩ := (thread_eq_error_iff.mp read).exists_cause numbers
      exact ⟨cause, rfl⟩

end

/-! ### All rows -/

/--
A thread that is kept under a name comes back under it, and keeping it cannot fail. A row that gives
no thread has a fault, the first of its faults being the error: it is corrupt exactly if a number is
out of range, and otherwise unreadable exactly if a column of text is. The thread of any other row
is the same when it is kept under the id of the row and read again.
-/
theorem kept_or_faulty :
    (∀ (id : String) (t : Thread), (ofThread id t).thread = .ok { t with id := id }) ∧
      ∀ row : Row,
        (∀ e, row.thread = .error e ↔ row.Fault e) ∧
          ((∃ e, row.thread = .error e ∧ e.isCorrupt) ↔ ¬ row.NumbersFit) ∧
          ((∃ cause, row.thread = .error (.column cause)) ↔ row.NumbersFit ∧ ¬ row.TextReads) ∧
          ((∃ t, row.thread = .ok t) ↔ row.NumbersFit ∧ row.TextReads) ∧
          ∀ t, row.thread = .ok t → (ofThread row.id t).thread = .ok t :=
  ⟨thread_ofThread, fun _ =>
    ⟨fun _ => thread_eq_error_iff, corrupt_iff, unreadable_iff, exists_thread_iff,
      fun _ => thread_ofThread_of_thread⟩⟩

/--
A thread with characters that JSON escapes, under a foreign name; a row that no thread was kept in,
with an entry that nobody knows, a role listed twice and the greatest numbers; that row with text
that cannot be read, and then with both numbers too large besides.
-/
theorem kept_or_faulty_foreign :
    let escaped : Thread := { Thread.new "t" 3 0 with
      name := some "\x00\"\\/\n\x1f"
      members := [⟨"😀", some "", .ofList [("\x7f", ⟨true, some "\x08"⟩)], true⟩]
      roles := .ofList [("\x00", ⟨"\\", "\t", .ofList [("😀\"", false)], true⟩)] }
    let row : Row := { ofThread "u" (.new "t" 255 0) with
      members := "[\x7b\"since\":[1e9], \"id\":\"\\u0000\"\x7d]"
      roles := "\x7b\"r\":[\"a\",\"b\"], \"r\":\x7b\"name\":\"d\",\"id\":\"c\"\x7d\x7d"
      repliesCount := 4294967295 }
    let read : Thread := { Thread.new "u" 255 0 with
      members := [.new "\x00" none]
      roles := .ofList [("r", ⟨"c", "d", ∅, false⟩)]
      repliesCount := 4294967295 }
    let unreadable : Row := { row with roles := "\x7b\"r\":[\"a\"]\x7d", currentUser := "" }
    let corrupt : Row := { unreadable with kind := 256, repliesCount := 4294967296 }
    (ofThread "\x00😀" escaped).thread = .ok { escaped with id := "\x00😀" } ∧
      row.thread = .ok read ∧ (ofThread row.id read).thread = .ok read ∧
      (ofThread row.id read).members ≠ row.members ∧
      unreadable.thread = .error (.column (.invalidLength 1 "struct RoleInfo with 4 elements")) ∧
      corrupt.thread = .error (.kindOutOfRange "u" 256) := by
  intro escaped row read unreadable corrupt
  obtain ⟨kept, faulty⟩ := kept_or_faulty
  have reads : row.thread = .ok read := by decide +kernel
  have numbers : unreadable.NumbersFit :=
    ⟨show 0 ≤ _ ∧ _ ≤ 255 by decide, show 0 ≤ _ ∧ _ ≤ 4294967295 by decide⟩
  have members : membersDesc.readText unreadable.members = .ok [.new "\x00" none] := by
    decide +kernel
  have short : rolesDesc.readText unreadable.roles =
      .error (.invalidLength 1 "struct RoleInfo with 4 elements") := by
    decide +kernel
  have outside : ¬ corrupt.KindFits := show ¬ (0 ≤ _ ∧ _ ≤ 255) by decide
  exact ⟨kept _ _, reads, (faulty row).2.2.2.2 read reads, by decide +kernel,
    ((faulty unreadable).1 _).mpr (.roles numbers members short),
    ((faulty corrupt).1 _).mpr (.kind outside)⟩

end Row

end Cache

end ThreadCache
