import EngineConsole.Proofs.Capture.Entries
import EngineConsole.Proofs.Message.Frames

/-!
# A message as a list of entries

What a walk without a schema finds in an encoding: one entry for each field that is present, with the number of the field, and one for each element of a list of messages. The list is read off the message by the rules of presence, without going through the encoder. Its numbers ascend, because the fields of a message are written in the order of their numbers; only the elements of one list of messages share theirs.
-/

namespace EngineConsole

/-! ### The entries of a message -/

/-- The payload of the scalar as a walk shows it, which knows nothing of flags and variants. -/
def Scalar.walked {α : Type} : Scalar α → α → WalkedPayload
  | .uint32, value => .varint value
  | .fixed32, value => .fixed32 ⟨value⟩
  | .float, value => .fixed32 value
  | .bool, value => .varint (if value then 1 else 0)
  | .enum enumeration, value => .varint (UInt32.ofNat (enumeration.number value))

/-- At most one entry: a whole list of floats is one, and an empty one is none. -/
def Leaf.entries {α : Type} (number : Nat) : Leaf α → α → List (Nat × WalkedPayload)
  | .scalar kind, value => if kind.isZero value then [] else [(number, kind.walked value)]
  | .optional kind, value => value.toList.map fun value => (number, kind.walked value)
  | .text _, value => if value.isEmpty then [] else [(number, .delimited value.utf8ByteSize)]
  | .optionalText _, value => value.toList.map fun text => (number, .delimited text.utf8ByteSize)
  | .floats _, values => if values.isEmpty then [] else [(number, .delimited (4 * values.length))]

def Alternatives.entry {α : Type} : Alternatives α → α → Nat × WalkedPayload
  | .signal number _ _, .inl () => (number, .delimited 0)
  | .signal _ _ others, .inr value => others.entry value
  | .scalar number _ kind _, .inl value => (number, kind.walked value)
  | .scalar _ _ _ others, .inr value => others.entry value
  | .message number _ format _, .inl chosen => (number, .delimited (format.bytes chosen).length)
  | .message _ _ _ others, .inr value => others.entry value

/-- One entry for each message that the field holds, as long as the encoding of the message. -/
def Field.entries {α : Type} : Field α → α → List (Nat × WalkedPayload)
  | .leaf number _ kind, value => kind.entries number value
  | .message number _ format, value =>
    value.toList.map fun message => (number, .delimited (format.bytes message).length)
  | .messages number _ _ format, values =>
    values.map fun message => (number, .delimited (format.bytes message).length)
  | .choice _ alternatives split _ _ _, value =>
    value.toList.map fun kind => alternatives.entry (split kind)

def Fields.entries {α : Type} : Fields α → α → List (Nat × WalkedPayload)
  | .nil, _ => []
  | .cons field others, (value, values) => field.entries value ++ others.entries values

def Format.entries {μ : Type} : Format μ → μ → List (Nat × WalkedPayload)
  | .record _ fields split _ _ _, message => fields.entries (split message)

/-! ### The entries tile the encoding -/

def WalkedRecord.entry (record : WalkedRecord) : Nat × WalkedPayload :=
  (record.number, record.payload)

/-- Wherever the bytes begin, records with these numbers and payloads tile them. -/
def Listed (bytes : Bytes) (entries : List (Nat × WalkedPayload)) : Prop :=
  ∀ offset, ∃ records, Tiles offset bytes records ∧ records.map WalkedRecord.entry = entries

theorem listed_nil : Listed [] [] := fun offset => ⟨[], .nil offset, rfl⟩

theorem Entry.listed {bytes : Bytes} {number : Nat} {payload : WalkedPayload}
    (h : Entry bytes number payload) : Listed bytes [(number, payload)] := fun offset =>
  ⟨[⟨offset, number, payload⟩], .single h, rfl⟩

theorem Listed.append {left right : Bytes} {entries others : List (Nat × WalkedPayload)}
    (h : Listed left entries) (hothers : Listed right others) :
    Listed (left ++ right) (entries ++ others) := by
  intro offset
  obtain ⟨records, htiles, rfl⟩ := h offset
  obtain ⟨more, hmore, rfl⟩ := hothers (offset + left.length)
  exact ⟨records ++ more, htiles.append hmore, List.map_append⟩

theorem Entry.of_legible {tag : Tag} {body : Bytes} {payload : WalkedPayload} (h : tag.Legible)
    (fills : payload.Fills tag.wireType body) :
    Entry (Tag.encode tag ++ body) tag.number payload := by
  have hraw : Tag.ofRaw (UInt32.ofNat tag.raw).toNat = tag := by
    rw [UInt32.toNat_ofNat_of_lt' (Tag.raw_lt h.2), Tag.ofRaw_raw h]
  have hentry : Entry (Tag.encode tag ++ body)
      (Tag.ofRaw (UInt32.ofNat tag.raw).toNat).number payload :=
    .mk (Varint.writes_encode _) (hraw.symm ▸ fills)
  rwa [hraw] at hentry

theorem Entry.of_delimited {number : Nat} {content : Bytes} (hnumber : number < 0x20000000)
    (hlength : content.length < 0x100000000) :
    Entry (Delimited.header number content.length ++ content) number
      (.delimited content.length) := by
  have hfills : WalkedPayload.Fills .delimited (Delimited.payload content)
      (.delimited content.length) :=
    .delimited (Varint.writes_encode _) (UInt32.toNat_ofNat_of_lt' hlength).symm
  have hlegible : (Tag.mk number .delimited).Legible := ⟨hnumber, fun _ => WireType.noConfusion⟩
  have hentry := Entry.of_legible hlegible hfills
  rwa [Delimited.payload, ← List.append_assoc] at hentry

theorem Scalar.fills_encodeValue {α : Type} (kind : Scalar α) (value : α) :
    (kind.walked value).Fills kind.wireType (kind.encodeValue value) := by
  cases kind with
  | uint32 => exact .varint (Varint.writes_encode value)
  | fixed32 => exact .fixed32 ⟨value⟩
  | float => exact .fixed32 value
  | bool => exact .varint (Varint.writes_encode _)
  | enum enumeration => exact .varint (Varint.writes_encode _)

theorem Scalar.entry_encode {α : Type} (kind : Scalar α) {number : Nat}
    (hnumber : number < 0x20000000) (value : α) :
    Entry (kind.encode number value) number (kind.walked value) := by
  have hlegible : (Tag.mk number kind.wireType).Legible := ⟨hnumber, kind.wireType_ne_unsupported⟩
  exact .of_legible hlegible (kind.fills_encodeValue value)

theorem Text.entry_encode {number : Nat} {text : String} (hnumber : number < 0x20000000)
    (hlength : text.utf8ByteSize < 0x100000000) :
    Entry (Text.encode number text).flatten number (.delimited text.utf8ByteSize) := by
  rw [← length_bytes] at hlength ⊢
  simpa [encode] using Entry.of_delimited hnumber hlength

theorem Leaf.listed_encode {α : Type} {kind : Leaf α} {number : Nat} {value : α}
    (hnumber : number < 0x20000000) (hformed : kind.wellFormed = true)
    (hwithin : kind.within value = true) :
    Listed (kind.encode number value).flatten (kind.entries number value) := by
  cases kind with
  | scalar kind =>
    rw [encode, entries]
    split
    · exact listed_nil
    · rw [List.flatten_singleton]
      exact (kind.entry_encode hnumber value).listed
  | optional kind =>
    cases value with
    | none => exact listed_nil
    | some value =>
      rw [encode, Option.elim_some, List.flatten_singleton]
      exact (kind.entry_encode hnumber value).listed
  | text capacity =>
    simp only [wellFormed, within, Bool.and_eq_true, decide_eq_true_eq] at hformed hwithin
    rw [encode, entries]
    split
    · exact listed_nil
    · exact (Text.entry_encode hnumber (by omega)).listed
  | optionalText capacity =>
    cases value with
    | none => exact listed_nil
    | some text =>
      simp only [wellFormed, within, Option.all_some, Bool.and_eq_true, decide_eq_true_eq]
        at hformed hwithin
      exact (Text.entry_encode hnumber (by omega)).listed
  | floats capacity =>
    simp only [wellFormed, within, Bool.and_eq_true, decide_eq_true_eq] at hformed hwithin
    have hlength := Floats.length_flatMap_encode value
    rw [Fixed32.size] at hlength
    rw [encode, entries, Floats.flatten_encode]
    split
    · exact listed_nil
    · rw [Nat.mul_comm, ← hlength]
      exact (Entry.of_delimited hnumber (by omega)).listed

theorem Format.entry_header {μ : Type} {format : Format μ} {message : μ} {number : Nat}
    (hformed : format.wellFormed = true) (hnumber : number < 0x20000000)
    (hlargest : format.maxSize < 0x100000000) (hwithin : format.within message = true) :
    Entry (Delimited.header number (format.size message) :: format.encode message).flatten number
      (.delimited (format.bytes message).length) := by
  have hlength := format.length_bytes hformed message
  have hsize := format.size_le_maxSize hformed hwithin
  rw [List.flatten_cons, ← hlength]
  exact .of_delimited hnumber (by omega)

theorem Alternatives.entry_encode {α : Type} : (alternatives : Alternatives α) →
    alternatives.wellFormed = true → (value : α) → alternatives.within value = true →
    Entry (alternatives.encode value).flatten (alternatives.entry value).1
      (alternatives.entry value).2
  | .signal number _ _, hformed, .inl (), _ => by
    simp only [Alternatives.wellFormed, Bool.and_eq_true, decide_eq_true_eq] at hformed
    have hempty : ([] : Bytes).length < 0x100000000 := by decide
    exact .of_delimited hformed.1 hempty
  | .signal _ _ others, hformed, .inr value, hwithin => by
    rw [Alternatives.wellFormed, Bool.and_eq_true] at hformed
    exact others.entry_encode hformed.2 value hwithin
  | .scalar number _ kind _, hformed, .inl value, _ => by
    simp only [Alternatives.wellFormed, Bool.and_eq_true, decide_eq_true_eq] at hformed
    rw [Alternatives.encode, List.flatten_singleton]
    exact kind.entry_encode hformed.1.1 value
  | .scalar _ _ _ others, hformed, .inr value, hwithin => by
    rw [Alternatives.wellFormed, Bool.and_eq_true] at hformed
    exact others.entry_encode hformed.2 value hwithin
  | .message number _ format _, hformed, .inl chosen, hwithin => by
    simp only [Alternatives.wellFormed, Bool.and_eq_true, decide_eq_true_eq] at hformed
    exact format.entry_header hformed.1.2 hformed.1.1.1 hformed.1.1.2 hwithin
  | .message _ _ _ others, hformed, .inr value, hwithin => by
    rw [Alternatives.wellFormed, Bool.and_eq_true] at hformed
    exact others.entry_encode hformed.2 value hwithin

theorem Field.listed_encode {α : Type} {field : Field α} {value : α}
    (hformed : field.wellFormed = true) (hwithin : field.within value = true) :
    Listed (field.encode value).flatten (field.entries value) := by
  cases field with
  | leaf number name kind =>
    rw [wellFormed, Bool.and_eq_true, decide_eq_true_eq] at hformed
    exact kind.listed_encode hformed.1 hformed.2 hwithin
  | message number name format =>
    simp only [wellFormed, Bool.and_eq_true, decide_eq_true_eq] at hformed
    cases value with
    | none => exact listed_nil
    | some message =>
      exact (format.entry_header hformed.2 hformed.1.1 hformed.1.2 hwithin).listed
  | messages number name capacity format =>
    simp only [wellFormed, Bool.and_eq_true, decide_eq_true_eq] at hformed
    simp only [within, Bool.and_eq_true, List.all_eq_true] at hwithin
    replace hwithin := hwithin.2
    rw [encode, entries]
    induction value with
    | nil => exact listed_nil
    | cons message values ih =>
      rw [List.forall_mem_cons] at hwithin
      rw [List.flatMap_cons, List.flatten_append, List.map_cons, ← List.singleton_append]
      exact (format.entry_header hformed.2 hformed.1.1 hformed.1.2 hwithin.1).listed.append
        (ih hwithin.2)
  | choice name alternatives split join join_split split_join =>
    rw [wellFormed, Bool.and_eq_true] at hformed
    cases value with
    | none => exact listed_nil
    | some kind => exact (alternatives.entry_encode hformed.2 (split kind) hwithin).listed

theorem Fields.listed_encode {α : Type} : (fields : Fields α) → fields.wellFormed = true →
    (values : α) → fields.within values = true →
    Listed (fields.encode values).flatten (fields.entries values)
  | .nil, _, _, _ => listed_nil
  | .cons field others, hformed, (value, values), hwithin => by
    rw [Fields.wellFormed, Bool.and_eq_true] at hformed
    rw [Fields.within, Bool.and_eq_true] at hwithin
    rw [Fields.encode, List.flatten_append]
    exact (field.listed_encode hformed.1 hwithin.1).append
      (others.listed_encode hformed.2 values hwithin.2)

theorem Format.listed_bytes {μ : Type} {format : Format μ} {message : μ}
    (hformed : format.wellFormed = true) (hwithin : format.within message = true) :
    Listed (format.bytes message) (format.entries message) := by
  obtain ⟨name, fields, split, join, join_split, split_join⟩ := format
  rw [wellFormed, Bool.and_eq_true] at hformed
  exact fields.listed_encode hformed.2 (split message) hwithin

/-! ### The order of the entries -/

/-- The number of the field, if it can be written under one number more than once. -/
def Field.repeated {α : Type} : Field α → List Nat
  | .messages number _ _ _ => [number]
  | _ => []

def Fields.repeated {α : Type} : Fields α → List Nat
  | .nil => []
  | .cons field others => field.repeated ++ others.repeated

def Format.repeated {μ : Type} : Format μ → List Nat
  | .record _ fields _ _ _ _ => fields.repeated

def Format.ascending {μ : Type} : Format μ → Bool
  | .record _ fields _ _ _ _ => decide (fields.numbers.Pairwise (· < ·))

theorem Leaf.entries_cases {α : Type} (number : Nat) (kind : Leaf α) (value : α) :
    kind.entries number value = [] ∨
      ∃ payload, kind.entries number value = [(number, payload)] := by
  cases kind with
  | scalar kind =>
    rw [entries]
    split
    · exact .inl rfl
    · exact .inr ⟨_, rfl⟩
  | optional kind =>
    cases value with
    | none => exact .inl rfl
    | some value => exact .inr ⟨_, rfl⟩
  | text capacity =>
    rw [entries]
    split
    · exact .inl rfl
    · exact .inr ⟨_, rfl⟩
  | optionalText capacity =>
    cases value with
    | none => exact .inl rfl
    | some text => exact .inr ⟨_, rfl⟩
  | floats capacity =>
    rw [entries]
    split
    · exact .inl rfl
    · exact .inr ⟨_, rfl⟩

theorem Alternatives.number_entry_mem {α : Type} : (alternatives : Alternatives α) → (value : α) →
    (alternatives.entry value).1 ∈ alternatives.numbers
  | .signal _ _ _, .inl () | .scalar _ _ _ _, .inl _ | .message _ _ _ _, .inl _ =>
    List.mem_cons_self
  | .signal _ _ others, .inr value | .scalar _ _ _ others, .inr value
  | .message _ _ _ others, .inr value => List.mem_cons_of_mem _ (others.number_entry_mem value)

/-- A field is listed under its own numbers, and under more than one entry only if it is a list of messages. -/
theorem Field.numbers_entries {α : Type} (field : Field α) (value : α) :
    (∀ entry ∈ field.entries value, entry.1 ∈ field.numbers) ∧
      (field.entries value).Pairwise fun entry next =>
        entry.1 = next.1 ∧ entry.1 ∈ field.repeated := by
  cases field with
  | leaf number name kind =>
    rw [entries, numbers]
    rcases kind.entries_cases number value with hentries | ⟨payload, hentries⟩
    · simp [hentries]
    · simp [hentries]
  | message number name format => cases value <;> simp [entries, numbers]
  | messages number name capacity format =>
    refine ⟨by simp [entries, numbers], ?_⟩
    rw [entries, List.pairwise_map]
    exact List.pairwise_of_forall_sublist fun _ => ⟨rfl, List.mem_singleton_self number⟩
  | choice name alternatives split join join_split split_join =>
    cases value with
    | none => simp [entries]
    | some kind => simp [entries, numbers, alternatives.number_entry_mem]

theorem Fields.number_mem_of_mem_entries {α : Type} : (fields : Fields α) → (values : α) →
    ∀ entry ∈ fields.entries values, entry.1 ∈ fields.numbers
  | .nil, _, entry, h => nomatch h
  | .cons field others, (value, values), entry, h => by
    rw [Fields.entries, List.mem_append] at h
    rw [Fields.numbers, List.mem_append]
    exact h.imp ((field.numbers_entries value).1 entry)
      (others.number_mem_of_mem_entries values entry)

theorem Fields.pairwise_entries {α : Type} : (fields : Fields α) →
    fields.numbers.Pairwise (· < ·) → (values : α) →
    (fields.entries values).Pairwise fun entry next =>
      entry.1 < next.1 ∨ entry.1 = next.1 ∧ entry.1 ∈ fields.repeated
  | .nil, _, _ => .nil
  | .cons field others, hnumbers, (value, values) => by
    rw [Fields.numbers, List.pairwise_append] at hnumbers
    obtain ⟨_, hothers, hacross⟩ := hnumbers
    obtain ⟨hmem, hfield⟩ := field.numbers_entries value
    rw [Fields.entries, List.pairwise_append]
    refine ⟨hfield.imp fun h => .inr ⟨h.1, List.mem_append_left _ h.2⟩,
      (others.pairwise_entries hothers values).imp fun h =>
        h.imp id fun h => ⟨h.1, List.mem_append_right _ h.2⟩, ?_⟩
    intro entry hentry next hnext
    exact .inl (hacross _ (hmem entry hentry) _
      (others.number_mem_of_mem_entries values next hnext))

theorem Format.pairwise_entries {μ : Type} {format : Format μ} (h : format.ascending = true)
    (message : μ) : (format.entries message).Pairwise fun entry next =>
      entry.1 < next.1 ∨ entry.1 = next.1 ∧ entry.1 ∈ format.repeated := by
  obtain ⟨name, fields, split, join, join_split, split_join⟩ := format
  exact fields.pairwise_entries (of_decide_eq_true h) (split message)

end EngineConsole
