import EngineConsole.Proofs.Message.Concatenation
import EngineConsole.Proofs.Record.Reordering

/-!
# The order of the records

Each record acts on the one field that its tag addresses, and whether it is accepted depends on this field alone. So complete records of different fields may change places: what a sequence of records makes of a message is told, field by field, by the records of that field in their order.
-/

namespace EngineConsole

/-! ### Every record takes its payload -/

theorem Leaf.takesPayload_merge {α : Type} {kind : Leaf α} {wireType : WireType} (number : Nat)
    (haccepts : kind.accepts wireType = true) (value : α) :
    Merged.TakesPayload wireType (kind.merge number wireType value) := by
  cases kind with
  | scalar kind =>
    obtain rfl := beq_iff_eq.mp haccepts
    exact Merged.takesPayload_assign (kind.takesPayload_fetch number) value id
  | optional kind =>
    obtain rfl := beq_iff_eq.mp haccepts
    exact Merged.takesPayload_assign (kind.takesPayload_fetch number) value some
  | text capacity =>
    obtain rfl := beq_iff_eq.mp haccepts
    exact Text.takesPayload_fetch number capacity value id
  | optionalText capacity =>
    obtain rfl := beq_iff_eq.mp haccepts
    exact Text.takesPayload_fetch number capacity value some
  | floats capacity =>
    rw [accepts, Bool.or_eq_true, beq_iff_eq, beq_iff_eq] at haccepts
    rcases haccepts with rfl | rfl
    · exact Floats.takesPayload_mergePacked number capacity value
    · exact Floats.takesPayload_mergeUnpacked number capacity value

theorem Alternatives.takesPayload_merge {α : Type} {tag : Tag} : (alternatives : Alternatives α) →
    alternatives.accepts tag = true → (chosen : Option α) →
    Merged.TakesPayload tag.wireType (alternatives.merge tag chosen)
  | .signal number _ others, haccepts, chosen => by
    rw [Alternatives.accepts, Bool.or_eq_true] at haccepts
    refine Merged.takesPayload_ite (fun htag => ?_) (fun htag => ?_)
    · rw [beq_iff_eq.mp htag]
      exact (Delimited.takesPayload_merge (mergeNothing_moves ())).map
        fun error _ => if error.isNone then some (Sum.inl ()) else none
    · have hothers := others.takesPayload_merge (haccepts.resolve_left htag)
        (chosen.bind Sum.getRight?)
      exact hothers.map fun _ => Option.map Sum.inr
  | .scalar number _ kind others, haccepts, chosen => by
    rw [Alternatives.accepts, Bool.or_eq_true] at haccepts
    refine Merged.takesPayload_ite (fun htag => ?_) (fun htag => ?_)
    · rw [beq_iff_eq.mp htag]
      exact Merged.takesPayload_assign (kind.takesPayload_fetch number) none _
    · have hothers := others.takesPayload_merge (haccepts.resolve_left htag)
        (chosen.bind Sum.getRight?)
      exact hothers.map fun _ => Option.map Sum.inr
  | .message number _ format others, haccepts, chosen => by
    rw [Alternatives.accepts, Bool.or_eq_true] at haccepts
    refine Merged.takesPayload_ite (fun htag => ?_) (fun htag => ?_)
    · rw [beq_iff_eq.mp htag]
      exact (Delimited.takesPayload_merge (format.moves_merge _)).map
        fun _ message => some (Sum.inl message)
    · have hothers := others.takesPayload_merge (haccepts.resolve_left htag)
        (chosen.bind Sum.getRight?)
      exact hothers.map fun _ => Option.map Sum.inr

theorem Field.takesPayload_merge {α : Type} {field : Field α} {tag : Tag}
    (haccepts : field.accepts tag = true) (value : α) :
    Merged.TakesPayload tag.wireType (field.merge tag value) := by
  cases field with
  | leaf number name kind =>
    rw [accepts, Bool.and_eq_true] at haccepts
    exact Leaf.takesPayload_merge number haccepts.2 value
  | message number name format =>
    rw [beq_iff_eq.mp haccepts]
    exact (Delimited.takesPayload_merge (format.moves_merge _)).map fun _ => some
  | messages number name capacity format =>
    rw [beq_iff_eq.mp haccepts]
    exact Delimited.takesPayload_append number capacity format.maxSize value (format.moves_merge _)
  | choice name alternatives split join join_split split_join =>
    exact (alternatives.takesPayload_merge haccepts (value.map split)).map fun _ chosen =>
      (chosen.map join).or value

/-- A record that addresses a field takes its payload as a whole, unless it fails. -/
theorem Fields.takesPayload_merge {α : Type} {tag : Tag} : (fields : Fields α) →
    fields.index tag ≠ none → (values : α) →
    Merged.TakesPayload tag.wireType (fields.merge tag values)
  | .nil, hindex, _ => absurd rfl hindex
  | .cons field others, hindex, (value, values) => by
    refine Merged.takesPayload_ite (fun haccepts => ?_) (fun haccepts => ?_)
    · exact (Field.takesPayload_merge haccepts value).map fun _ value => (value, values)
    · rw [index, if_neg haccepts, Ne, Option.map_eq_none_iff] at hindex
      exact (others.takesPayload_merge hindex values).map fun _ values => (value, values)

/-! ### Records of one field and of the others -/

def Fields.place {α : Type} (fields : Fields α) (record : Bytes) : Option Nat :=
  (Tag.read (.ofBytes record)).1.bind fields.index

def Field.addressed {α : Type} (field : Field α) (record : Bytes) : Bool :=
  (Tag.read (.ofBytes record)).1.any field.accepts

theorem Fields.place_cons {α β : Type} (field : Field α) (others : Fields β) (record : Bytes) :
    (Fields.cons field others).place record =
      if field.addressed record then some 0 else (others.place record).map (· + 1) := by
  rw [place, place, Field.addressed]
  cases (Tag.read (.ofBytes record)).1 with
  | none => rfl
  | some tag => rfl

theorem Fields.mergeAlone?_cons {α β : Type} (field : Field α) (others : Fields β) (value : α)
    (values : β) (record : Bytes) :
    Delimited.mergeAlone? (Fields.cons field others).merge (value, values) record =
      if field.addressed record then
        (Delimited.mergeAlone? field.merge value record).map (·, values)
      else (Delimited.mergeAlone? others.merge values record).map (value, ·) := by
  rw [Delimited.mergeAlone?, Delimited.mergeAlone?, Delimited.mergeAlone?, Field.addressed]
  cases Tag.read (.ofBytes record) with
  | mk found behindTag =>
    cases found with
    | none => rfl
    | some tag =>
      simp only [Option.any_some, Fields.merge]
      split
      · exact Merged.whole?_map _ _
      · exact Merged.whole?_map _ _

theorem Fields.filter_place_succ {α β : Type} (field : Field α) (others : Fields β)
    (records : List Bytes) (place : Nat) :
    (records.filter fun record => !field.addressed record).filter
        (fun record => others.place record = some place) =
      records.filter fun record => (Fields.cons field others).place record = some (place + 1) := by
  rw [List.filter_filter]
  apply List.filter_congr
  intro record _
  rw [place_cons]
  by_cases haddressed : field.addressed record = true
  · simp [haddressed]
  · simp [haddressed, Option.map_eq_some_iff]

theorem Fields.filter_place_zero {α β : Type} (field : Field α) (others : Fields β)
    (records : List Bytes) :
    records.filter field.addressed =
      records.filter fun record => (Fields.cons field others).place record = some 0 := by
  apply List.filter_congr
  intro record _
  rw [place_cons]
  by_cases haddressed : field.addressed record = true
  · simp [haddressed]
  · simp [haddressed, Option.map_eq_some_iff]

theorem Fields.place_ne_none_of_cons {α β : Type} {field : Field α} {others : Fields β}
    {records : List Bytes}
    (h : ∀ record ∈ records, (Fields.cons field others).place record ≠ none) :
    ∀ record ∈ records.filter fun record => !field.addressed record,
      others.place record ≠ none := by
  intro record hrecord
  obtain ⟨hmem, haddressed⟩ := List.mem_filter.mp hrecord
  have hplace := h record hmem
  rw [place_cons, if_neg (by simpa using haddressed), Ne, Option.map_eq_none_iff] at hplace
  exact hplace

/-- Records that address fields, in an order that is the same for each field, make the same of a message. -/
theorem Fields.foldlM_mergeAlone?_eq {α : Type} : (fields : Fields α) → (values : α) →
    {records others : List Bytes} → (∀ record ∈ records, fields.place record ≠ none) →
    (∀ record ∈ others, fields.place record ≠ none) →
    (∀ place, records.filter (fun record => fields.place record = some place) =
      others.filter fun record => fields.place record = some place) →
    records.foldlM (Delimited.mergeAlone? fields.merge) values =
      others.foldlM (Delimited.mergeAlone? fields.merge) values
  | .nil, values, records, others, hrecords, hothers, _ => by
    have hnone : ∀ record, (Fields.nil).place record = none := fun record => by
      rw [place]
      cases (Tag.read (.ofBytes record)).1 <;> rfl
    rw [List.eq_nil_iff_forall_not_mem.mpr fun record h => hrecords record h (hnone record),
      List.eq_nil_iff_forall_not_mem.mpr fun record h => hothers record h (hnone record)]
  | .cons field fields, (value, values), records, others, hrecords, hothers, horder => by
    rw [foldlM_pair (Fields.mergeAlone?_cons field fields),
      foldlM_pair (Fields.mergeAlone?_cons field fields)]
    have hfirst : records.filter field.addressed = others.filter field.addressed := by
      rw [filter_place_zero field fields, filter_place_zero field fields]
      exact horder 0
    have hrest := fields.foldlM_mergeAlone?_eq values (place_ne_none_of_cons hrecords)
      (place_ne_none_of_cons hothers) fun place => by
        rw [filter_place_succ, filter_place_succ]
        exact horder (place + 1)
    rw [hfirst, hrest]

namespace Format

variable {μ : Type} {format : Format μ} {message last : μ} {records others : List Bytes}

/-! ### Sequences of records -/

/-- The place of the field that the tag of a record addresses; all alternatives of a choice are in one place. -/
def place : Format μ → Bytes → Option Nat
  | .record _ fields _ _ _ _, data => fields.place data

/-- The bytes are a record that addresses a field of the message, with one payload of its wire type. -/
def CompleteRecord (format : Format μ) (record : Bytes) : Prop :=
  ∃ tag behindTag, Tag.read (.ofBytes record) = (some tag, behindTag) ∧ format.index tag ≠ none ∧
    tag.wireType.Complete behindTag.source.rest

/-- The records in another order, which is the same for the records of each field and of each choice. -/
structure Reordered (format : Format μ) (records others : List Bytes) : Prop where
  perm : records.Perm others
  order : ∀ place, records.filter (fun record => format.place record = some place) =
    others.filter fun record => format.place record = some place

theorem place_ne_none {record : Bytes} (h : format.CompleteRecord record) :
    format.place record ≠ none := by
  obtain ⟨tag, behindTag, hread, hindex, -⟩ := h
  cases format with
  | record name fields split join join_split split_join =>
    rw [place, Fields.place, hread]
    exact hindex

theorem takesPayload_mergeRecord {tag : Tag} (h : format.index tag ≠ none) (message : μ) :
    Merged.TakesPayload tag.wireType (format.mergeRecord tag message) := by
  cases format with
  | record name fields split join join_split split_join =>
    exact (fields.takesPayload_merge h (split message)).map fun _ => join

theorem endsBetweenRecords_of_mergeAlone? {next : μ} {record : Bytes}
    (h : Delimited.mergeAlone? format.mergeRecord message record = some next) :
    format.EndsBetweenRecords message record ∧
      (format.merge message (.ofBytes record)).value = next := by
  obtain ⟨tag, behindTag, hread, hnone, hunread, hvalue⟩ := Delimited.mergeAlone?_eq_some h
  refine Passes.endsBetweenRecords ?_ hunread
  cases format with
  | record name fields split join join_split split_join =>
    have hnext : split next = (fields.merge tag (split message) behindTag).value := by
      rw [← hvalue]
      exact split_join _
    have hothers : Delimited.Passes fields.merge
        (fields.merge tag (split message) behindTag).value
        (fields.merge tag (split message) behindTag).reader (split next)
        (fields.merge tag (split message) behindTag).reader := by
      rw [hnext]
      exact .nil _ _
    exact .cons hread hnone hothers

/-- Records that can be merged alone one after the other are merged in sequence. -/
theorem merge_flatten_of_foldlM
    (h : records.foldlM (Delimited.mergeAlone? format.mergeRecord) message = some last) :
    (format.merge message (.ofBytes records.flatten)).error = none ∧
      (format.merge message (.ofBytes records.flatten)).value = last := by
  induction records generalizing message with
  | nil =>
    obtain ⟨after, hread, -⟩ := Tag.read_of_ends (Reader.ends_ofBytes [])
    rw [List.flatten_nil, merge_of_ends hread]
    exact ⟨rfl, Option.some.inj h⟩
  | cons record records ih =>
    rw [List.foldlM_cons] at h
    obtain ⟨next, hnext, hothers⟩ := Option.bind_eq_some_iff.mp h
    obtain ⟨hends, hvalue⟩ := endsBetweenRecords_of_mergeAlone? hnext
    obtain ⟨hwhole, herror, -⟩ := merge_append hends records.flatten
    rw [hvalue] at hwhole herror
    rw [List.flatten_cons, hwhole, herror]
    exact ih hothers

theorem foldlM_of_merge_flatten (hcomplete : ∀ record ∈ records, format.CompleteRecord record)
    (hnone : (format.merge message (.ofBytes records.flatten)).error = none) :
    ∃ last, records.foldlM (Delimited.mergeAlone? format.mergeRecord) message = some last := by
  induction records generalizing message with
  | nil => exact ⟨message, rfl⟩
  | cons record records ih =>
    rw [List.forall_mem_cons] at hcomplete
    rw [List.flatten_cons] at hnone
    obtain ⟨⟨tag, behindTag, hread, hindex, hpayload⟩, hothers⟩ := hcomplete
    obtain ⟨front, hfront, htag⟩ := Tag.repeatable_read hread
    obtain ⟨rest, hrest⟩ := hfront.next
    have hoffers : (Reader.ofBytes (record ++ records.flatten)).Offers front := by
      have hwhole := Reader.offers_ofBytes (record ++ records.flatten)
      have hrecord : front ++ rest = record := hrest
      rw [← hrecord, List.append_assoc] at hwhole ⊢
      exact hwhole.of_append_left
    obtain ⟨behindTag', hread', -⟩ := htag _ hoffers
    have hdone : (format.mergeRecord tag message behindTag').error = none := by
      by_contra herror
      exact error_merge_of_record hread' herror hnone
    obtain ⟨next, hnext⟩ := Delimited.exists_mergeAlone?
      (format.repeatable_mergeRecord tag message) (takesPayload_mergeRecord hindex message)
      hread hpayload hread' hdone
    obtain ⟨hends, hvalue⟩ := endsBetweenRecords_of_mergeAlone? hnext
    obtain ⟨-, herror, -⟩ := merge_append hends records.flatten
    rw [herror, hvalue] at hnone
    obtain ⟨last, hlast⟩ := ih hothers hnone
    exact ⟨last, by rw [List.foldlM_cons, hnext]; exact hlast⟩

theorem foldlM_mergeRecord {α : Type} (name : String) (fields : Fields α) (split : μ → α)
    (join : α → μ) (join_split : ∀ message, join (split message) = message)
    (split_join : ∀ values, split (join values) = values) (records : List Bytes) (message : μ) :
    records.foldlM (Delimited.mergeAlone?
        (record name fields split join join_split split_join).mergeRecord) message =
      (records.foldlM (Delimited.mergeAlone? fields.merge) (split message)).map join := by
  induction records generalizing message with
  | nil => exact congrArg some (join_split message).symm
  | cons head records ih =>
    have hhead : Delimited.mergeAlone?
        (record name fields split join join_split split_join).mergeRecord message head =
          (Delimited.mergeAlone? fields.merge (split message) head).map join := by
      rw [Delimited.mergeAlone?, Delimited.mergeAlone?]
      cases Tag.read (.ofBytes head) with
      | mk found behindTag =>
        cases found with
        | none => rfl
        | some tag => exact Merged.whole?_map _ join
    rw [List.foldlM_cons, List.foldlM_cons, hhead]
    cases Delimited.mergeAlone? fields.merge (split message) head with
    | none => rfl
    | some next =>
      have hnext := ih (join next)
      rw [split_join] at hnext
      exact hnext

/-- Complete records make the same of a message in every order that is the same for each field. -/
theorem foldlM_of_reordered (hcomplete : ∀ record ∈ records, format.CompleteRecord record)
    (h : format.Reordered records others) (message : μ) :
    others.foldlM (Delimited.mergeAlone? format.mergeRecord) message =
      records.foldlM (Delimited.mergeAlone? format.mergeRecord) message := by
  have hrecords : ∀ record ∈ records, format.place record ≠ none := fun record hrecord =>
    place_ne_none (hcomplete record hrecord)
  have hothers : ∀ record ∈ others, format.place record ≠ none := fun record hrecord =>
    hrecords record (h.perm.mem_iff.mpr hrecord)
  have horder := h.order
  cases format with
  | record name fields split join join_split split_join =>
    rw [foldlM_mergeRecord, foldlM_mergeRecord,
      fields.foldlM_mergeAlone?_eq (split message) hrecords hothers horder]

end Format

end EngineConsole
