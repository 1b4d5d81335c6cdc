import EngineConsole.Proofs.Message.Simulation
import EngineConsole.Proofs.Record.Passage

/-!
# What a failure leaves behind

A merge that fails has merged the records before the one that failed, and this one may have changed the field that its tag addresses. Whether it has depends on the field: a number, a text or an element of a list is assigned only when it is complete, while a submessage and a packed list keep what was merged into them. Nothing else is touched.
-/

namespace EngineConsole

/-! ### Records that fail without a trace -/

/-- True if a failing record of that wire type leaves the field as it was. Of a packed record the floats before the failure stay. -/
def Leaf.atomic {α : Type} : Leaf α → WireType → Bool
  | .floats _, wireType => wireType == .fixed32
  | _, _ => true

/-- The same of the alternative that the tag addresses. A message is chosen before its payload is read. -/
def Alternatives.atomic {α : Type} : Alternatives α → Tag → Bool
  | .nil, _ => true
  | .signal number _ others, tag => if tag == ⟨number, .delimited⟩ then true else others.atomic tag
  | .scalar number _ kind others, tag =>
    if tag == ⟨number, kind.wireType⟩ then true else others.atomic tag
  | .message number _ _ others, tag =>
    if tag == ⟨number, .delimited⟩ then false else others.atomic tag

def Field.atomic {α : Type} : Field α → Tag → Bool
  | .leaf _ _ kind, tag => kind.atomic tag.wireType
  | .message .., _ => false
  | .messages .., _ => true
  | .choice _ alternatives _ _ _ _, tag => alternatives.atomic tag

def Fields.atomic {α : Type} : Fields α → Tag → Bool
  | .nil, _ => true
  | .cons field others, tag => if field.accepts tag then field.atomic tag else others.atomic tag

def Fields.AgreeApart {α : Type} : Fields α → Tag → α → α → Prop
  | .nil, _, _, _ => True
  | .cons field others, tag, (value, values), (value', values') =>
    if field.accepts tag then values = values'
    else value = value' ∧ others.AgreeApart tag values values'

theorem Leaf.value_merge_of_error {α : Type} {number : Nat} {wireType : WireType} {kind : Leaf α}
    {value : α} {reader : Reader} (hatomic : kind.atomic wireType = true)
    (h : (kind.merge number wireType value reader).error ≠ none) :
    (kind.merge number wireType value reader).value = value := by
  cases kind with
  | scalar kind => exact Fetched.value_assign_of_error h
  | optional kind => exact Fetched.value_assign_of_error h
  | text capacity => exact Fetched.value_assign_of_error h
  | optionalText capacity => exact Fetched.value_assign_of_error h
  | floats capacity =>
    rw [atomic, beq_iff_eq] at hatomic
    rw [merge, if_pos hatomic] at h ⊢
    exact Floats.value_mergeUnpacked_of_error h

theorem Alternatives.value_merge_of_error {α : Type} : (alternatives : Alternatives α) →
    (tag : Tag) → (chosen : Option α) → (reader : Reader) → alternatives.atomic tag = true →
    (alternatives.merge tag chosen reader).error ≠ none →
    (alternatives.merge tag chosen reader).value = none
  | .nil, _, _, _, _, _ => rfl
  | .signal number _ others, tag, chosen, reader, hatomic, h => by
    rw [atomic] at hatomic
    rw [Alternatives.merge] at h ⊢
    split at h
    · rename_i htag
      rw [if_pos htag]
      simp only [Merged.map, Option.isNone_iff_eq_none] at h ⊢
      rw [if_neg h]
    · rename_i htag
      rw [if_neg htag] at hatomic ⊢
      exact congrArg (Option.map Sum.inr) (others.value_merge_of_error tag _ reader hatomic h)
  | .scalar number _ kind others, tag, chosen, reader, hatomic, h => by
    rw [atomic] at hatomic
    rw [Alternatives.merge] at h ⊢
    split at h
    · rename_i htag
      rw [if_pos htag]
      exact Fetched.value_assign_of_error h
    · rename_i htag
      rw [if_neg htag] at hatomic ⊢
      exact congrArg (Option.map Sum.inr) (others.value_merge_of_error tag _ reader hatomic h)
  | .message number _ format others, tag, chosen, reader, hatomic, h => by
    rw [atomic] at hatomic
    rw [Alternatives.merge] at h ⊢
    split at h
    · rename_i htag
      rw [if_pos htag] at hatomic
      cases hatomic
    · rename_i htag
      rw [if_neg htag] at hatomic ⊢
      exact congrArg (Option.map Sum.inr) (others.value_merge_of_error tag _ reader hatomic h)

theorem Field.value_merge_of_error {α : Type} {field : Field α} {tag : Tag} {value : α}
    {reader : Reader} (hatomic : field.atomic tag = true)
    (h : (field.merge tag value reader).error ≠ none) :
    (field.merge tag value reader).value = value := by
  cases field with
  | leaf number name kind => exact Leaf.value_merge_of_error hatomic h
  | message number name format => cases hatomic
  | messages number name capacity format => exact Delimited.value_append_of_error h
  | choice name alternatives split join join_split split_join =>
    have hnone := alternatives.value_merge_of_error tag (value.map split) reader hatomic h
    rw [Field.merge, Merged.map, hnone]
    rfl

theorem Fields.value_merge_of_error {α : Type} : (fields : Fields α) → (tag : Tag) →
    (values : α) → (reader : Reader) → fields.atomic tag = true →
    (fields.merge tag values reader).error ≠ none → (fields.merge tag values reader).value = values
  | .nil, _, _, _, _, _ => rfl
  | .cons field others, tag, (value, values), reader, hatomic, h => by
    rw [Fields.atomic] at hatomic
    rw [Fields.merge] at h ⊢
    split at h
    · rename_i haccepts
      rw [if_pos haccepts] at hatomic ⊢
      exact congrArg (·, values) (Field.value_merge_of_error hatomic h)
    · rename_i haccepts
      rw [if_neg haccepts] at hatomic ⊢
      exact congrArg (value, ·) (others.value_merge_of_error tag values reader hatomic h)

/-- A record changes no field but the one that its tag addresses. -/
theorem Fields.agreeApart_merge {α : Type} : (fields : Fields α) → (tag : Tag) → (values : α) →
    (reader : Reader) → fields.AgreeApart tag values (fields.merge tag values reader).value
  | .nil, _, _, _ => trivial
  | .cons field others, tag, (value, values), reader => by
    rw [Fields.merge]
    split
    · rename_i haccepts
      rw [Merged.map, AgreeApart, if_pos haccepts]
    · rename_i haccepts
      rw [Merged.map, AgreeApart, if_neg haccepts]
      exact ⟨rfl, others.agreeApart_merge tag values reader⟩

/-! ### Records that succeed -/

theorem dropTag_repeatable {α : Type} (tag : Tag) (value : α) :
    Merged.Repeatable (dropTag tag value) := Merged.repeatable_idle value [.unrecognized tag]

theorem Leaf.repeatable_merge {α : Type} (number : Nat) (wireType : WireType) (kind : Leaf α)
    (value : α) : Merged.Repeatable (kind.merge number wireType value) := by
  cases kind with
  | scalar kind => exact Merged.repeatable_assign (kind.repeatable_fetch number) value id
  | optional kind => exact Merged.repeatable_assign (kind.repeatable_fetch number) value some
  | text capacity =>
    exact Merged.repeatable_assign (Text.repeatable_fetch number capacity) value id
  | optionalText capacity =>
    exact Merged.repeatable_assign (Text.repeatable_fetch number capacity) value some
  | floats capacity =>
    by_cases hunpacked : wireType = .fixed32
    · have hmerge : (Leaf.floats capacity).merge number wireType value =
        Floats.mergeUnpacked number capacity value := funext fun reader => if_pos hunpacked
      rw [hmerge]
      exact Floats.repeatable_mergeUnpacked number capacity value
    · have hmerge : (Leaf.floats capacity).merge number wireType value =
        Floats.mergePacked number capacity value := funext fun reader => if_neg hunpacked
      rw [hmerge]
      exact Floats.repeatable_mergePacked number capacity value

theorem Alternatives.repeatable_merge {α : Type} (tag : Tag) : (alternatives : Alternatives α) →
    (chosen : Option α) → Merged.Repeatable (alternatives.merge tag chosen)
  | .nil, _ => Merged.repeatable_idle none []
  | .signal number _ others, chosen => by
    have hsignal := Delimited.repeatable_merge
      (Reader.Simulation.window.follows_mergeNothing ()) (mergeNothing_moves ())
    have hothers := others.repeatable_merge tag (chosen.bind Sum.getRight?)
    exact Merged.repeatable_ite
      (fun _ => hsignal.map fun error _ => if error.isNone then some (Sum.inl ()) else none)
      (fun _ => hothers.map fun _ => Option.map Sum.inr)
  | .scalar number _ kind others, chosen => by
    have hothers := others.repeatable_merge tag (chosen.bind Sum.getRight?)
    exact Merged.repeatable_ite
      (fun _ => Merged.repeatable_assign (kind.repeatable_fetch number) none _)
      (fun _ => hothers.map fun _ => Option.map Sum.inr)
  | .message number _ format others, chosen => by
    have hothers := others.repeatable_merge tag (chosen.bind Sum.getRight?)
    exact Merged.repeatable_ite
      (fun _ => (Delimited.repeatable_merge (format.follows_merge .window _)
        (format.moves_merge _)).map fun _ message => some (Sum.inl message))
      (fun _ => hothers.map fun _ => Option.map Sum.inr)

theorem Field.repeatable_merge {α : Type} (field : Field α) (tag : Tag) (value : α) :
    Merged.Repeatable (field.merge tag value) := by
  cases field with
  | leaf number name kind => exact kind.repeatable_merge number tag.wireType value
  | message number name format =>
    exact (Delimited.repeatable_merge (format.follows_merge .window _)
      (format.moves_merge _)).map fun _ => some
  | messages number name capacity format =>
    exact Delimited.repeatable_append number capacity format.maxSize value
      (format.follows_merge .window _) (format.moves_merge _)
  | choice name alternatives split join join_split split_join =>
    exact (alternatives.repeatable_merge tag (value.map split)).map fun _ chosen =>
      (chosen.map join).or value

/-- Every record that succeeds is repeatable, whichever field it addresses. -/
theorem Fields.repeatable_merge {α : Type} (tag : Tag) : (fields : Fields α) → (values : α) →
    Merged.Repeatable (fields.merge tag values)
  | .nil, values => dropTag_repeatable tag values
  | .cons field others, values =>
    Merged.repeatable_ite
      (fun _ => (field.repeatable_merge tag values.1).map fun _ value => (value, values.2))
      (fun _ => (others.repeatable_merge tag values.2).map fun _ rest => (values.1, rest))

/-! ### The message -/

namespace Format

variable {μ : Type}

def mergeRecord : Format μ → Tag → μ → Reader → Merged μ
  | .record _ fields split join _ _, tag, message, reader =>
    (fields.merge tag (split message) reader).map join

/-- One record after the other succeeds, from the first message and reader to the last ones. -/
def Passes : Format μ → μ → Reader → μ → Reader → Prop
  | .record _ fields split _ _ _, message, reader, last, after =>
    Delimited.Passes fields.merge (split message) reader (split last) after

/-- The two agree on every field but the one that the tag addresses. -/
def AgreeApart : Format μ → Tag → μ → μ → Prop
  | .record _ fields split _ _ _, tag, message, other =>
    fields.AgreeApart tag (split message) (split other)

def atomic : Format μ → Tag → Bool
  | .record _ fields _ _ _ _, tag => fields.atomic tag

/-- A merge of `data` that failed: `done` holds the records before the one that failed, which lead to the message `kept` without a failure, and `rest` begins with the one that failed, which is all that has happened to `kept` since. -/
structure Broken (format : Format μ) (message : μ) (data done rest : Bytes) (kept : μ) (tag : Tag) :
    Prop where
  split : data = done ++ rest
  passes : ∃ after, format.Passes message (.ofBytes done) kept after ∧ after.unread = 0
  value : (format.merge message (.ofBytes done)).value = kept
  error : (format.merge message (.ofBytes done)).error = none
  head : (Tag.read (.ofBytes rest)).1 = some tag
  failed : (format.mergeRecord tag kept (Tag.read (.ofBytes rest)).2).error =
    (format.merge message (.ofBytes data)).error
  changed : (format.mergeRecord tag kept (Tag.read (.ofBytes rest)).2).value =
    (format.merge message (.ofBytes data)).value

theorem broken_of_error (format : Format μ) {message : μ} {data : Bytes} {error : DecodeError}
    (h : (format.merge message (.ofBytes data)).error = some error) :
    ∃ done rest kept tag, format.Broken message data done rest kept tag := by
  cases format with
  | record name fields split join join_split split_join =>
    obtain ⟨records, hrun, hmerged⟩ :=
      (record name fields split join join_split split_join).complete_merge message (.ofBytes data)
    have herror : records.error = some error := by
      rw [hmerged] at h
      exact h
    obtain ⟨done, rest, last, after, tag, hsplit, hpasses, hafter, hhead, hfailed, hchanged⟩ :=
      hrun.split_of_error (fun tag => fields.repeatable_merge tag) (fields.follows_merge .window)
        herror
    obtain ⟨recordsDone, hrunDone, hmergedDone⟩ :=
      (record name fields split join join_split split_join).complete_merge message (.ofBytes done)
    obtain ⟨hvalueDone, herrorDone⟩ := hpasses.ends_ofBytes hafter hrunDone
    refine ⟨done, rest, join last, tag, ?_⟩
    constructor
    case split => exact hsplit
    case passes =>
      have hunread : after.unread + done.length = done.length := hafter.unread
      refine ⟨after, ?_, by omega⟩
      rwa [Passes, split_join]
    case value => rw [hmergedDone, Merged.map, hvalueDone]
    case error => rw [hmergedDone, Merged.map, herrorDone]
    case head => exact hhead
    case failed =>
      rw [h, mergeRecord, Merged.map, split_join]
      exact hfailed
    case changed => rw [hmerged, mergeRecord, Merged.map, Merged.map, split_join, hchanged]

variable {format : Format μ} {message kept : μ} {data done rest : Bytes} {tag : Tag}

theorem Broken.agreeApart (h : format.Broken message data done rest kept tag) :
    format.AgreeApart tag kept (format.merge message (.ofBytes data)).value := by
  rw [← h.changed]
  cases format with
  | record name fields split join join_split split_join =>
    rw [AgreeApart, mergeRecord, Merged.map, split_join]
    exact fields.agreeApart_merge tag (split kept) _

theorem Broken.value_eq (h : format.Broken message data done rest kept tag)
    (herror : (format.merge message (.ofBytes data)).error ≠ none)
    (hatomic : format.atomic tag = true) :
    (format.merge message (.ofBytes data)).value = kept := by
  rw [← h.failed] at herror
  rw [← h.changed]
  cases format with
  | record name fields split join join_split split_join =>
    have hvalue := fields.value_merge_of_error tag (split kept) _ hatomic herror
    rw [mergeRecord, Merged.map, hvalue, join_split]

end Format

end EngineConsole
