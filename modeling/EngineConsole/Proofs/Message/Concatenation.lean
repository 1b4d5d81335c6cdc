import EngineConsole.Proofs.Message.Failure

/-!
# Messages in parts

A message may be sent in parts, as long as it is cut between two records. The records of the first part lead to the message from which the second part is merged, and nothing else is carried across the cut: not where the bytes lie, nor which records were there before. A tag that addresses no field is such a part by itself, one that changes nothing.
-/

namespace EngineConsole

namespace Reader

theorem Reaches.position_add_unread {data : Bytes} {after : Reader}
    (h : (ofBytes data).Reaches after) : after.source.position + after.unread = data.length := by
  obtain ⟨count, hadvanced⟩ := h
  have hposition : after.source.position = 0 + count := hadvanced.position
  have hunread : after.unread + count = data.length := hadvanced.unread
  omega

theorem Window.rest_eq {reader other : Reader} (h : Window 0 reader other)
    (hreader : reader.spans = []) (hother : other.spans = []) :
    reader.source.rest = other.source.rest := by
  obtain ⟨inner, data, -, ⟨outer, hspans, hexposes⟩, outer', hspans', hexposes'⟩ := h
  rw [hreader] at hspans
  rw [hother] at hspans'
  obtain rfl := (List.append_eq_nil_iff.mp hspans.symm).2
  obtain rfl := (List.append_eq_nil_iff.mp hspans'.symm).2
  cases hexposes with
  | all supply rest =>
    cases hexposes' with
    | all supply' rest' => rw [rest, rest']

end Reader

/-! ### Which field a tag addresses -/

/-- The place of the field that the tag addresses, counted from the first field. A choice is one field, whichever of its alternatives is addressed. -/
def Fields.index {α : Type} : Fields α → Tag → Option Nat
  | .nil, _ => none
  | .cons field others, tag =>
    if field.accepts tag then some 0 else (others.index tag).map (· + 1)

theorem Fields.merge_of_index_eq_none {α : Type} {tag : Tag} : (fields : Fields α) →
    fields.index tag = none → (values : α) → (reader : Reader) →
    fields.merge tag values reader = dropTag tag values reader
  | .nil, _, _, _ => rfl
  | .cons field others, h, (value, values), reader => by
    by_cases haccepts : field.accepts tag = true
    · rw [index, if_pos haccepts] at h
      contradiction
    · rw [index, if_neg haccepts, Option.map_eq_none_iff] at h
      rw [Fields.merge, if_neg haccepts, others.merge_of_index_eq_none h values reader]
      rfl

namespace Format

variable {μ : Type}

def index : Format μ → Tag → Option Nat
  | .record _ fields _ _ _ _, tag => fields.index tag

/-- The bytes are those of a tag, in any form in which it can be read, and the tag addresses no field of the message. -/
def Unrecognized (format : Format μ) (data : Bytes) : Prop :=
  ∃ tag after, Tag.read (.ofBytes data) = (some tag, after) ∧ after.unread = 0 ∧
    format.index tag = none

/-! ### The end of the first part -/

/-- The merge of `data` succeeds and ends between two records: at the reader `behind`, where no byte is left, the attempt to read another tag ends it. -/
def EndsBetweenRecords (format : Format μ) (message : μ) (data : Bytes) : Prop :=
  (format.merge message (.ofBytes data)).error = none ∧
  ∃ behind,
    format.Passes message (.ofBytes data) (format.merge message (.ofBytes data)).value behind ∧
    behind.unread = 0 ∧ Tag.read behind = (none, (format.merge message (.ofBytes data)).reader)

variable {format : Format μ} {message kept : μ}

theorem Passes.merge {reader after : Reader} (h : format.Passes message reader kept after) :
    (format.merge message reader).value = (format.merge kept after).value ∧
    (format.merge message reader).reader = (format.merge kept after).reader ∧
    (format.merge message reader).error = (format.merge kept after).error := by
  cases format with
  | record name fields split join join_split split_join =>
    obtain ⟨records, hrun, hmerged⟩ :=
      (record name fields split join join_split split_join).complete_merge message reader
    obtain ⟨records', hrun', hmerged'⟩ :=
      (record name fields split join join_split split_join).complete_merge kept after
    obtain ⟨others, hothers, hvalue, hreader, herror⟩ := Delimited.Passes.run h hrun
    obtain rfl := hothers.unique hrun'
    rw [hmerged, hmerged']
    exact ⟨congrArg join hvalue, hreader, herror⟩

theorem repeatable_mergeRecord (format : Format μ) (tag : Tag) (message : μ) :
    Merged.Repeatable (format.mergeRecord tag message) := by
  cases format with
  | record name fields split join join_split split_join =>
    exact (fields.repeatable_merge tag (split message)).map fun _ => join

theorem error_merge_of_record {tag : Tag} {reader behindTag : Reader}
    (hread : Tag.read reader = (some tag, behindTag))
    (h : (format.mergeRecord tag message behindTag).error ≠ none) :
    (format.merge message reader).error ≠ none := by
  cases format with
  | record name fields split join join_split split_join =>
    obtain ⟨error, herror⟩ := Option.ne_none_iff_exists'.mp h
    have hrecord : (fields.merge tag (split message) behindTag).error = some error := herror
    rw [merge, Delimited.mergeRecords, hread]
    simp only [Merged.map, Merged.andThen, hrecord]
    exact Option.some_ne_none error

theorem merge_of_ends {reader after : Reader} (h : Tag.read reader = (none, after)) :
    format.merge message reader = { value := message, reader := after } := by
  cases format with
  | record name fields split join join_split split_join =>
    rw [merge, Delimited.mergeRecords, h]
    simp only [Merged.map, join_split]

theorem Passes.endsBetweenRecords {data : Bytes} {behind : Reader}
    (h : format.Passes message (.ofBytes data) kept behind) (hbehind : behind.unread = 0) :
    format.EndsBetweenRecords message data ∧
      (format.merge message (.ofBytes data)).value = kept := by
  obtain ⟨stop, hstop, -⟩ := Tag.read_of_ends (.inl hbehind)
  obtain ⟨hvalue, hreader, herror⟩ := h.merge
  rw [merge_of_ends hstop] at hvalue hreader herror
  refine ⟨⟨herror, behind, ?_, hbehind, ?_⟩, hvalue⟩
  · rw [hvalue]
    exact h
  · rw [hreader]
    exact hstop

theorem Unrecognized.endsBetweenRecords {data : Bytes} (h : format.Unrecognized data)
    (message : μ) :
    format.EndsBetweenRecords message data ∧
      (format.merge message (.ofBytes data)).value = message := by
  obtain ⟨tag, after, hread, hafter, hindex⟩ := h
  apply Passes.endsBetweenRecords _ hafter
  cases format with
  | record name fields split join join_split split_join =>
    have hdrop := fields.merge_of_index_eq_none hindex (split message) after
    have hothers : Delimited.Passes fields.merge (fields.merge tag (split message) after).value
        (fields.merge tag (split message) after).reader (split message) after := by
      rw [hdrop]
      exact .nil (split message) after
    apply Delimited.Passes.cons hread _ hothers
    rw [hdrop]
    rfl

/-! ### Going on with the second part -/

/-- Records that pass through all of the data pass as well where more follows, and what follows is all that is left then. -/
theorem Passes.append {data : Bytes} {behind : Reader}
    (h : format.Passes message (.ofBytes data) kept behind) (hbehind : behind.unread = 0)
    (more : Bytes) :
    ∃ after, format.Passes message (.ofBytes (data ++ more)) kept after ∧
      Reader.Window 0 after (.ofBytes more) := by
  cases format with
  | record name fields split join join_split split_join =>
    obtain ⟨taken, hdelivered, hrepeats⟩ :=
      Delimited.Passes.repeats (fun tag => fields.repeatable_merge tag) h trivial
    have hlength : taken.length = data.length := by
      have hunread : behind.unread + taken.length = data.length := hdelivered.advanced.unread
      omega
    obtain rfl : taken = data := hdelivered.next.eq_of_length hlength
    have hoffers : (Reader.ofBytes (taken ++ more)).Offers taken :=
      (Reader.offers_ofBytes (taken ++ more)).of_append_left
    obtain ⟨after, hpasses, hadvanced⟩ := hrepeats (.ofBytes (taken ++ more)) hoffers
    have hview : Reader.View [] more after :=
      Reader.Delivered.view ⟨List.prefix_append taken more, hadvanced⟩
    exact ⟨after, hpasses, [], more, rfl, hview, Reader.view_ofBytes more⟩

theorem spans_merge_ofBytes (format : Format μ) (message : μ) (data : Bytes) :
    (format.merge message (.ofBytes data)).reader.spans = [] := by
  obtain ⟨count, hadvanced⟩ := format.moves_merge message (.ofBytes data)
  exact hadvanced.spans

/-- What follows a part that ends between two records is merged as if it were alone, into what the part has made of the message. -/
theorem merge_append {first : Bytes} (h : format.EndsBetweenRecords message first)
    (second : Bytes) :
    let kept := (format.merge message (.ofBytes first)).value
    let whole := format.merge message (.ofBytes (first ++ second))
    let alone := format.merge kept (.ofBytes second)
    whole.value = alone.value ∧ whole.error = alone.error ∧
      whole.reader.source.rest = alone.reader.source.rest ∧
      whole.reader.source.position = first.length + alone.reader.source.position := by
  obtain ⟨-, behind, hpasses, hbehind, -⟩ := h
  generalize (format.merge message (.ofBytes first)).value = kept at hpasses ⊢
  obtain ⟨after, hpasses', hwindow⟩ := hpasses.append hbehind second
  obtain ⟨hvalue, hreader, herror⟩ := hpasses'.merge
  have halike := format.follows_merge .window kept hwindow
  have hrest : (format.merge message (.ofBytes (first ++ second))).reader.source.rest =
      (format.merge kept (.ofBytes second)).reader.source.rest := by
    apply Reader.Window.rest_eq
    · rw [hreader]
      exact halike.reader
    · exact format.spans_merge_ofBytes message (first ++ second)
    · exact format.spans_merge_ofBytes kept second
  refine ⟨hvalue.trans halike.value, herror.trans halike.error_eq, hrest, ?_⟩
  have hunread : (format.merge message (.ofBytes (first ++ second))).reader.unread =
      (format.merge kept (.ofBytes second)).reader.unread := congrArg List.length hrest
  have hwhole := (format.moves_merge message (.ofBytes (first ++ second))).position_add_unread
  have halone := (format.moves_merge kept (.ofBytes second)).position_add_unread
  rw [List.length_append] at hwhole
  show (format.merge message (.ofBytes (first ++ second))).reader.source.position =
    first.length + (format.merge kept (.ofBytes second)).reader.source.position
  omega

/-! ### Tags between the records -/

/-- `padded` is `data` with unrecognized tags inserted, each before the first record, between two of them or behind the last one. -/
inductive Padded (format : Format μ) : μ → Bytes → Bytes → Prop where
  | none (message : μ) (data : Bytes) : Padded format message data data
  | tag {message : μ} {inserted data padded : Bytes} (unrecognized : format.Unrecognized inserted)
      (others : Padded format message data padded) :
      Padded format message data (inserted ++ padded)
  /-- The records up to the next tag are kept as they are. -/
  | records {message : μ} {first data padded : Bytes}
      (whole : format.EndsBetweenRecords message first)
      (others : Padded format (format.merge message (.ofBytes first)).value data padded) :
      Padded format message (first ++ data) (first ++ padded)

/-- By induction on the tags that were inserted: on both sides the records in between lead to the same message. -/
theorem Padded.merge {data padded : Bytes} (h : format.Padded message data padded) :
    (format.merge message (.ofBytes padded)).value =
        (format.merge message (.ofBytes data)).value ∧
      (format.merge message (.ofBytes padded)).error =
        (format.merge message (.ofBytes data)).error ∧
      (format.merge message (.ofBytes padded)).reader.source.rest =
        (format.merge message (.ofBytes data)).reader.source.rest := by
  induction h with
  | none message data => exact ⟨rfl, rfl, rfl⟩
  | @tag message inserted data padded unrecognized _ ih =>
    obtain ⟨hends, hkept⟩ := unrecognized.endsBetweenRecords message
    obtain ⟨hvalue, herror, hrest, -⟩ := merge_append hends padded
    rw [hkept] at hvalue herror hrest
    exact ⟨hvalue.trans ih.1, herror.trans ih.2.1, hrest.trans ih.2.2⟩
  | @records message first data padded whole _ ih =>
    obtain ⟨hvalue, herror, hrest, -⟩ := merge_append whole padded
    obtain ⟨hvalue', herror', hrest', -⟩ := merge_append whole data
    rw [hvalue, herror, hrest, hvalue', herror', hrest']
    exact ih

end Format

end EngineConsole
