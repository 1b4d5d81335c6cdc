import EngineConsole.Proofs.Message.Concatenation
import EngineConsole.Proofs.Message.Elements
import EngineConsole.Proofs.Record.Rejection

/-!
# What a merge comes across

A merge reads tags, and some records open a submessage, which is merged in a span of its own before the records behind it are. So what a merge comes across is a sequence in the order of the bytes, from all depths: the tags, each with the answer whether the message at hand has a field for it, and the submessages. What a merge reports and where it may stop can be told along this sequence.
-/

namespace EngineConsole

/-! ### Submessages -/

/-- A submessage that a record opens: the message that its bytes are merged into, the length of its span, and the reader in front of the span. -/
structure Opened : Type 1 where
  {Message : Type}
  format : Format Message
  message : Message
  length : Nat
  behind : Reader

namespace Opened

def entrance (opened : Opened) : Reader := opened.behind.enter opened.length

/-- What the merge of the submessage itself comes to, before the rest of the span is skipped. -/
def inside (opened : Opened) : Merged opened.Message :=
  opened.format.merge opened.message opened.entrance

def merged (opened : Opened) : Merged opened.Message :=
  Delimited.mergeSpan opened.format.merge opened.length opened.message opened.behind

end Opened

/-- The submessage in a delimited payload, if the length in front of it can be read. -/
def Format.opened {μ : Type} (format : Format μ) (message : μ) (reader : Reader) : Option Opened :=
  match Varint.readLength reader with
  | .ok length behind => some { format, message, length, behind }
  | .error _ _ => none

/-- The submessage that a record opens in the alternative that the tag addresses. An alternative without payload is a message without fields. -/
def Alternatives.opens {α : Type} : Alternatives α → Tag → Option α → Reader → Option Opened
  | .nil, _, _, _ => none
  | .signal number _ others, tag, chosen, reader =>
    if tag == ⟨number, .delimited⟩ then emptyFormat.opened () reader
    else others.opens tag (chosen.bind Sum.getRight?) reader
  | .scalar number _ kind others, tag, chosen, reader =>
    if tag == ⟨number, kind.wireType⟩ then none
    else others.opens tag (chosen.bind Sum.getRight?) reader
  | .message number _ format others, tag, chosen, reader =>
    if tag == ⟨number, .delimited⟩ then
      format.opened ((chosen.bind Sum.getLeft?).getD format.default) reader
    else others.opens tag (chosen.bind Sum.getRight?) reader

/-- The submessage that a record of the field opens. An element that a list rejects is not opened. -/
def Field.opens {α : Type} : Field α → Tag → α → Reader → Option Opened
  | .leaf .., _, _, _ => none
  | .message _ _ format, _, value, reader => format.opened (value.getD format.default) reader
  | .messages _ _ capacity format, _, values, reader =>
    (format.opened format.default reader).filter fun opened =>
      opened.length ≤ format.maxSize && values.length < capacity
  | .choice _ alternatives split _ _ _, tag, value, reader =>
    alternatives.opens tag (value.map split) reader

def Fields.opens {α : Type} : Fields α → Tag → α → Reader → Option Opened
  | .nil, _, _, _ => none
  | .cons field others, tag, (value, values), reader =>
    if field.accepts tag then field.opens tag value reader else others.opens tag values reader

/-- The submessage that the record behind the tag opens, if it does. -/
def Format.opens {μ : Type} : Format μ → Tag → μ → Reader → Option Opened
  | .record _ fields split _ _ _, tag, message, reader => fields.opens tag (split message) reader

/-! ### What a record comes to -/

/-- The outcome of a record that opens a submessage is that of the submessage. -/
structure Opened.Decides {α : Type} (opened : Opened) (reader : Reader) (merged : Merged α) :
    Prop where
  reached : reader.Reaches opened.behind
  error : merged.error = opened.merged.error
  notices : merged.notices = opened.merged.notices

/-- A record that addresses a field comes to what the submessage does that it opens, or it opens none and is accounted for by its own notices. -/
inductive Merged.Via {α : Type} (reader : Reader) (merged : Merged α) : Option Opened → Prop where
  | inside {opened : Opened} (decides : opened.Decides reader merged) : Via reader merged (some opened)
  | alone (explained : merged.Explained) : Via reader merged none

namespace Merged

variable {α β : Type} {reader : Reader}

theorem Via.map {merged : Merged α} {opened : Option Opened} (h : merged.Via reader opened)
    (f : α → β) : (merged.map f).Via reader opened := by
  cases h with
  | inside decides => exact .inside ⟨decides.reached, decides.error, decides.notices⟩
  | alone explained => exact .alone (explained.map f)

theorem via_ite {p : Prop} [Decidable p] {merged other : Merged α} {opened opened' : Option Opened}
    (h : merged.Via reader opened) (h' : other.Via reader opened') :
    (if p then merged else other).Via reader (if p then opened else opened') := by
  split
  · exact h
  · exact h'

end Merged

/-- An alternative without payload is merged as a message without fields. -/
theorem merge_emptyFormat : emptyFormat.merge = mergeNothing := rfl

theorem Format.opened_of_readLength {μ : Type} {format : Format μ} {message : μ}
    {reader behind : Reader} {length : Nat} (h : Varint.readLength reader = .ok length behind) :
    format.opened message reader = some { format, message, length, behind } := by
  rw [Format.opened, h]

theorem Format.via_opened {μ : Type} (format : Format μ) (message : μ) (reader : Reader) :
    (Delimited.merge format.merge message reader).Via reader (format.opened message reader) := by
  cases hread : Varint.readLength reader with
  | error error behind =>
    rw [Delimited.merge, Format.opened, hread]
    exact .alone (.failure rfl)
  | ok length behind =>
    rw [Format.opened_of_readLength hread, Delimited.merge, hread]
    exact .inside ⟨Varint.readLength_advances.reaches_of_ok hread, rfl, rfl⟩

theorem Leaf.explained_merge {α : Type} (number : Nat) (wireType : WireType) (kind : Leaf α)
    (value : α) (reader : Reader) : (kind.merge number wireType value reader).Explained := by
  cases kind with
  | scalar kind => exact Merged.explained_assign (kind.explained_fetch number reader) value id
  | optional kind => exact Merged.explained_assign (kind.explained_fetch number reader) value some
  | text capacity =>
    exact Merged.explained_assign (Text.explained_fetch number capacity reader) value id
  | optionalText capacity =>
    exact Merged.explained_assign (Text.explained_fetch number capacity reader) value some
  | floats capacity =>
    rw [merge]
    split
    · exact Floats.explained_mergeUnpacked number capacity value reader
    · exact Floats.explained_mergePacked number capacity value reader

theorem Alternatives.via_opens {α : Type} (tag : Tag) (reader : Reader) :
    (alternatives : Alternatives α) → (chosen : Option α) →
    (alternatives.merge tag chosen reader).Via reader (alternatives.opens tag chosen reader)
  | .nil, _ => .alone .success
  | .signal _ _ others, chosen =>
    Merged.via_ite ((emptyFormat.via_opened () reader).map _)
      ((others.via_opens tag reader (chosen.bind Sum.getRight?)).map (Option.map Sum.inr))
  | .scalar number _ kind others, chosen =>
    Merged.via_ite (.alone (Merged.explained_assign (kind.explained_fetch number reader) none _))
      ((others.via_opens tag reader (chosen.bind Sum.getRight?)).map (Option.map Sum.inr))
  | .message _ _ format others, chosen =>
    Merged.via_ite ((format.via_opened _ reader).map fun message => some (Sum.inl message))
      ((others.via_opens tag reader (chosen.bind Sum.getRight?)).map (Option.map Sum.inr))

theorem Field.via_opens {α : Type} (field : Field α) (tag : Tag) (value : α) (reader : Reader) :
    (field.merge tag value reader).Via reader (field.opens tag value reader) := by
  cases field with
  | leaf number name kind => exact .alone (kind.explained_merge number tag.wireType value reader)
  | message number name format => exact (format.via_opened _ reader).map some
  | messages number name capacity format =>
    rw [Field.merge, Field.opens, Delimited.append_eq]
    cases hread : Varint.readLength reader with
    | error error behind =>
      rw [Format.opened, hread]
      exact .alone (.failure rfl)
    | ok length behind =>
      rw [Format.opened_of_readLength hread]
      simp only [Option.filter_some]
      by_cases hlong : format.maxSize < length
      · rw [if_pos hlong, decide_eq_false (Nat.not_le.mpr hlong)]
        exact .alone (.rejection (.elementTooLong number length format.maxSize))
      · rw [if_neg hlong, decide_eq_true (Nat.not_lt.mp hlong)]
        by_cases hfull : capacity ≤ value.length
        · rw [if_pos hfull, decide_eq_false (Nat.not_lt.mpr hfull)]
          exact .alone (.rejection (.listFull number capacity))
        · rw [if_neg hfull, decide_eq_true (Nat.not_le.mp hfull)]
          exact .inside ⟨Varint.readLength_advances.reaches_of_ok hread, rfl, rfl⟩
  | choice name alternatives split join join_split split_join =>
    exact (alternatives.via_opens tag reader (value.map split)).map fun chosen =>
      (chosen.map join).or value

theorem Fields.via_opens {α : Type} {tag : Tag} : (fields : Fields α) →
    (fields.index tag).isSome = true → (values : α) → (reader : Reader) →
    (fields.merge tag values reader).Via reader (fields.opens tag values reader)
  | .nil, h, _, _ => nomatch h
  | .cons field others, h, (value, values), reader => by
    rw [Fields.merge, Fields.opens]
    by_cases haccepts : field.accepts tag = true
    · rw [if_pos haccepts, if_pos haccepts]
      exact (field.via_opens tag value reader).map _
    · rw [if_neg haccepts, if_neg haccepts]
      rw [Fields.index, if_neg haccepts, Option.isSome_map] at h
      exact (others.via_opens h values reader).map _

theorem Fields.opens_of_index_eq_none {α : Type} {tag : Tag} : (fields : Fields α) →
    fields.index tag = none → (values : α) → (reader : Reader) →
    fields.opens tag values reader = none
  | .nil, _, _, _ => rfl
  | .cons field others, h, (value, values), reader => by
    by_cases haccepts : field.accepts tag = true
    · rw [index, if_pos haccepts] at h
      contradiction
    · rw [index, if_neg haccepts, Option.map_eq_none_iff] at h
      rw [Fields.opens, if_neg haccepts]
      exact others.opens_of_index_eq_none h values reader

namespace Format

variable {μ : Type} {format : Format μ} {message : μ} {tag : Tag} {reader behindTag : Reader}
  {opened : Opened}

/-- A record does one of three things: its tag is dropped, or it comes to what a submessage does, or it is accounted for by its own notices. -/
theorem record_cases (format : Format μ) (tag : Tag) (message : μ) (reader : Reader) :
    (format.index tag = none ∧ format.opens tag message reader = none ∧
      format.mergeRecord tag message reader = dropTag tag message reader) ∨
    ((format.index tag).isSome = true ∧
      (format.mergeRecord tag message reader).Via reader (format.opens tag message reader)) := by
  cases format with
  | record name fields split join join_split split_join =>
    cases hindex : fields.index tag with
    | none =>
      refine .inl ⟨hindex, fields.opens_of_index_eq_none hindex _ _, ?_⟩
      rw [mergeRecord, fields.merge_of_index_eq_none hindex, dropTag, Merged.map, join_split]
      rfl
    | some place =>
      have hsome : (fields.index tag).isSome = true := by
        rw [hindex]
        rfl
      exact .inr ⟨hsome, (fields.via_opens hsome _ _).map join⟩

theorem decides_of_opens (h : format.opens tag message reader = some opened) :
    opened.Decides reader (format.mergeRecord tag message reader) := by
  rcases format.record_cases tag message reader with ⟨-, hnone, -⟩ | ⟨-, hvia⟩
  · cases h.symm.trans hnone
  · rw [h] at hvia
    cases hvia with
    | inside decides => exact decides

theorem moves_mergeRecord (format : Format μ) (tag : Tag) (message : μ) :
    Merged.Moves (format.mergeRecord tag message) := by
  cases format with
  | record name fields split join join_split split_join =>
    exact fields.moves_merge tag (split message)

theorem merge_of_read (hread : Tag.read reader = (some tag, behindTag)) :
    format.merge message reader =
      (format.mergeRecord tag message behindTag).andThen format.merge := by
  cases format with
  | record name fields split join join_split split_join =>
    obtain ⟨records, hrun, hmerged⟩ :=
      (record name fields split join join_split split_join).complete_merge message reader
    rw [hmerged, mergeRecord]
    cases herror : (fields.merge tag (split message) behindTag).error with
    | some error =>
      obtain rfl := hrun.unique (.fail hread herror)
      rw [Merged.andThen_of_error (by exact herror)]
    | none =>
      obtain ⟨others, hothers, hmergedOthers⟩ :=
        (record name fields split join join_split split_join).complete_merge
          (join (fields.merge tag (split message) behindTag).value)
          (fields.merge tag (split message) behindTag).reader
      rw [split_join] at hothers
      obtain rfl := hrun.unique (.next hread herror hothers)
      simp only [Merged.andThen, Merged.map, herror, hmergedOthers]

end Format

/-! ### The sequence -/

inductive Encounter : Type 1 where
  /-- A tag, and whether the message at hand has a field for it. -/
  | tag (tag : Tag) (recognized : Bool)
  /-- A submessage, at the place where its span begins. -/
  | submessage (opened : Opened)

def Encounter.dropped : Encounter → Option Tag
  | .tag found recognized => if recognized then none else some found
  | .submessage _ => none

/-- What a merge comes across, in the order of the bytes and from all depths. -/
def Format.encounters {μ : Type} (format : Format μ) (message : μ) (reader : Reader) :
    List Encounter :=
  match _hread : Tag.read reader with
  | (none, _) => []
  | (some tag, behindTag) =>
    let record := format.mergeRecord tag message behindTag
    let inside := match _hopens : format.opens tag message behindTag with
      | none => []
      | some opened =>
        .submessage opened :: opened.format.encounters opened.message opened.entrance
    let others := if record.error.isNone then format.encounters record.value record.reader else []
    .tag tag (format.index tag).isSome :: (inside ++ others)
termination_by reader.unread
decreasing_by
  -- the tag took a byte, and neither the length of a span nor a record gives one back
  · have hbehind := (Format.decides_of_opens _hopens).reached.unread_le
    exact Nat.lt_of_le_of_lt hbehind (Tag.unread_lt_of_read _hread)
  · have hrecord := (format.moves_mergeRecord tag message behindTag).unread_le
    exact Nat.lt_of_le_of_lt hrecord (Tag.unread_lt_of_read _hread)

def Opened.encounters (opened : Opened) : List Encounter :=
  .submessage opened :: opened.format.encounters opened.message opened.entrance

namespace Format

variable {μ : Type} {format : Format μ} {message : μ} {tag : Tag} {reader behindTag after : Reader}

theorem encounters_of_ends (hread : Tag.read reader = (none, after)) :
    format.encounters message reader = [] := by
  rw [encounters]
  split
  · rfl
  · rename_i hread'
    exact nomatch hread.symm.trans hread'

/-- Behind a tag, a merge comes across the submessage that the record opens, if it does, and what is inside, and goes on unless the record fails. -/
theorem encounters_of_read (hread : Tag.read reader = (some tag, behindTag)) :
    let record := format.mergeRecord tag message behindTag
    format.encounters message reader = .tag tag (format.index tag).isSome ::
      ((format.opens tag message behindTag).elim [] Opened.encounters ++
        if record.error.isNone then format.encounters record.value record.reader else []) := by
  rw [encounters]
  split
  · rename_i hread'
    exact nomatch hread.symm.trans hread'
  · rename_i hread'
    cases hread.symm.trans hread'
    split
    · rename_i hopens
      rw [hopens]
      rfl
    · rename_i hopens
      rw [hopens]
      rfl

end Format

end EngineConsole
