import EngineConsole.Capture.Walk
import EngineConsole.Proofs.Capture.Entries

/-!
# Where a walk ends

A walk lists the entries that tile the payload from its first byte on, and it ends where no entry begins. What stands there determines how it ends: why it stopped, and how many bytes the last attempt took. There is one step lemma, saying that a step either gets over one entry or halts, and one run lemma; the main statement is that the listed entries are the longest run of complete entries.
-/

namespace EngineConsole

/-! ### What stops a walk -/

/-- Why the data begin with no whole payload of the wire type, and how many bytes the attempt to read one takes. -/
inductive WalkFault.Arises : WireType → Bytes → WalkFault → Nat → Prop where
  | number {data : Bytes} (marked : Varint.Marked (data.take Varint.maxSize)) :
      Arises .varint data (.transfer (Varint.failure Varint.maxSize data))
        (min Varint.maxSize data.length)
  | fixed32 {data : Bytes} (short : data.length < Fixed32.size) :
      Arises .fixed32 data (.transfer (.endOfData Fixed32.size data.length)) 0
  | length {data : Bytes} (marked : Varint.Marked (data.take Varint.maxSize)) :
      Arises .delimited data (.transfer (Varint.failure Varint.maxSize data))
        (min Varint.maxSize data.length)
  | content {front rest : Bytes} {length : UInt32} (writes : Varint.Writes front length)
      (short : rest.length < length.toNat) :
      Arises .delimited (front ++ rest) (.lengthBeyondEnd length.toNat rest.length) front.length
  | unsupported (raw : Nat) (data : Bytes) : Arises (.unsupported raw) data (.unsupported raw) 0

/-- How a walk ends at the offset if `rest` is what lies there: the stop that it reports, and how many bytes the last attempt takes. A tag that cannot be read is reported only if the attempt leaves bytes behind. -/
inductive Halts (offset : Nat) : Bytes → Option WalkStop → Nat → Prop where
  | untagged {rest : Bytes} (marked : Varint.Marked (rest.take Varint.maxSize)) :
      Halts offset rest
        (if rest.length ≤ Varint.maxSize then none else some (.unreadableTag offset))
        (min Varint.maxSize rest.length)
  | faulty {head data : Bytes} {raw : UInt32} {fault : WalkFault} {used : Nat}
      (tag : Varint.Writes head raw)
      (arises : fault.Arises (Tag.ofRaw raw.toNat).wireType data used) :
      Halts offset (head ++ data) (some (.faultyRecord (Tag.ofRaw raw.toNat).number offset fault))
        (head.length + used)

def WalkStop.offset : WalkStop → Nat
  | unreadableTag offset => offset
  | faultyRecord _ offset _ => offset

theorem WalkStop.message_offset (stop : WalkStop) :
    ∃ before after, stop.message = before ++ s!" at offset {stop.offset}" ++ after := by
  cases stop with
  | unreadableTag offset =>
    have htext : "unreadable tag at offset " = "unreadable tag" ++ " at offset " := by
      decide +kernel
    refine ⟨"unreadable tag", "", ?_⟩
    calc (unreadableTag offset).message
      _ = "unreadable tag at offset " ++ toString offset := rfl
      _ = "unreadable tag" ++ " at offset " ++ toString offset :=
        congrArg (· ++ toString offset) htext
      _ = "unreadable tag" ++ (" at offset " ++ toString offset) := String.append_assoc ..
      _ = "unreadable tag" ++ (" at offset " ++ toString offset) ++ "" := String.append_empty.symm
  | faultyRecord number offset fault =>
    refine ⟨"field " ++ toString number, ": " ++ fault.message, ?_⟩
    calc (faultyRecord number offset fault).message
      _ = "field " ++ toString number ++ " at offset " ++ toString offset ++ ": " ++
          fault.message := rfl
      _ = "field " ++ toString number ++ (" at offset " ++ toString offset) ++ ": " ++
          fault.message := congrArg (· ++ ": " ++ fault.message) (String.append_assoc ..)
      _ = "field " ++ toString number ++ (" at offset " ++ toString offset) ++
          (": " ++ fault.message) := String.append_assoc ..

theorem WalkFault.Arises.not_fills {wireType : WireType} {data body : Bytes} {fault : WalkFault}
    {used : Nat} {payload : WalkedPayload} (h : fault.Arises wireType data used)
    (hbody : body <+: data) : ¬ payload.Fills wireType body := by
  intro hfills
  cases h with
  | number marked =>
    obtain ⟨writes⟩ := hfills
    exact writes.not_marked hbody marked
  | fixed32 short =>
    obtain _ | ⟨value⟩ := hfills
    have hlength := hbody.length_le
    rw [Single.length_encode] at hlength
    omega
  | length marked =>
    obtain _ | _ | ⟨writes, exact⟩ := hfills
    exact writes.not_marked ((List.prefix_append _ _).trans hbody) marked
  | content writes short =>
    obtain _ | _ | ⟨writes', exact⟩ := hfills
    obtain ⟨beyond, hbeyond⟩ := hbody
    rw [List.append_assoc] at hbeyond
    obtain ⟨rfl, rfl⟩ := writes'.unique writes hbeyond
    have hrest := congrArg List.length (List.append_cancel_left hbeyond)
    rw [List.length_append] at hrest
    omega
  | unsupported raw data => cases hfills

theorem Halts.entryFree {offset used : Nat} {rest : Bytes} {stop : Option WalkStop}
    (h : Halts offset rest stop used) : EntryFree rest := by
  rintro _ _ payload hfront ⟨tag, fills⟩
  cases h with
  | untagged marked => exact tag.not_marked ((List.prefix_append _ _).trans hfront) marked
  | faulty tag' arises =>
    obtain ⟨beyond, hbeyond⟩ := hfront
    rw [List.append_assoc] at hbeyond
    obtain ⟨rfl, rfl⟩ := tag.unique tag' hbeyond
    exact arises.not_fills ⟨beyond, List.append_cancel_left hbeyond⟩ fills

theorem entryFree_of_marked {bytes : Bytes} (h : Varint.Marked bytes) : EntryFree bytes := by
  have hhalts : Halts 0 bytes _ _ := .untagged (h.take Varint.maxSize)
  exact hhalts.entryFree

/-- A halt goes unreported only where nothing but the beginning of a tag is left. -/
theorem Halts.unreported_iff {offset used : Nat} {rest : Bytes} {stop : Option WalkStop}
    (h : Halts offset rest stop used) :
    stop = none ↔ rest.length ≤ Varint.maxSize ∧ Varint.Marked rest := by
  cases h with
  | untagged marked =>
    by_cases hlength : rest.length ≤ Varint.maxSize
    · rw [List.take_of_length_le hlength] at marked
      simp [hlength, marked]
    · simp [hlength]
  | @faulty head data raw fault used tag arises =>
    constructor
    · intro hnone
      cases hnone
    · rintro ⟨_, hmarked⟩
      exact absurd (hmarked.take Varint.maxSize) (tag.not_marked (List.prefix_append head data))

theorem Halts.offset_eq {offset used : Nat} {rest : Bytes} {stop : WalkStop}
    (h : Halts offset rest (some stop) used) : stop.offset = offset := by
  generalize hstop : some stop = reported at h
  cases h with
  | untagged marked =>
    split at hstop
    · cases hstop
    · cases hstop
      rfl
  | faulty tag arises =>
    cases hstop
    rfl

namespace Walk

variable {reader : Reader} {data : Bytes}

/-! ### One step -/

theorem reading_of_ok {α : Type} {read : Read α} {value : α} {after : Reader}
    (h : read reader = .ok value after) : reading read reader = .ok value after := by
  rw [reading, h]

theorem reading_of_error {α : Type} {read : Read α} {error : TransferError} {after : Reader}
    (h : read reader = .error error after) :
    reading read reader = .error (.transfer error) after := by
  rw [reading, h]

theorem readSpan_cases (h : reader.Holds data) (length : Nat) :
    (∃ content rest after, data = content ++ rest ∧ content.length = length ∧
      readSpan length reader = .ok (.delimited length) after ∧ reader.Advanced length after) ∨
    (data.length < length ∧
      readSpan length reader = .error (.lengthBeyondEnd length data.length) reader) := by
  rw [readSpan, h.unread]
  by_cases hshort : data.length < length
  · exact .inr ⟨hshort, if_pos hshort⟩
  · have hlength : (data.take length).length = length := List.length_take_of_le (by omega)
    have hholds : reader.Holds (data.take length ++ data.drop length) := by
      rwa [List.take_append_drop]
    obtain ⟨after, hread, hadvanced⟩ := Reader.read_of_offers hholds.offers.of_append_left
    rw [hlength] at hread hadvanced
    refine .inl ⟨data.take length, data.drop length, after, (List.take_append_drop ..).symm,
      hlength,
      ?_, hadvanced⟩
    rw [if_neg hshort]
    simp only [bind, EStateM.bind, reading_of_ok hread, pure, EStateM.pure]

theorem readPayload_cases (h : reader.Holds data) (wireType : WireType) :
    (∃ body rest payload after, data = body ++ rest ∧ WalkedPayload.Fills wireType body payload ∧
      readPayload wireType reader = .ok payload after ∧ reader.Advanced body.length after) ∨
    (∃ fault used after, fault.Arises wireType data used ∧
      readPayload wireType reader = .error fault after ∧ reader.Advanced used after) := by
  cases wireType with
  | varint =>
    rcases Varint.writes_or_marked data with ⟨body, rest, value, rfl, hwrites⟩ | hmarked
    · obtain ⟨after, hread, hadvanced⟩ := hwrites.yields_read reader h.offers.of_append_left
      refine .inl ⟨body, rest, .varint value, after, rfl, .varint hwrites, ?_, hadvanced⟩
      simp only [readPayload, bind, EStateM.bind, reading_of_ok hread, pure, EStateM.pure]
    · obtain ⟨after, hread, hadvanced⟩ := Varint.read_of_marked h hmarked
      refine .inr ⟨_, _, after, .number hmarked, ?_, hadvanced⟩
      simp only [readPayload, bind, EStateM.bind, reading_of_error hread]
  | fixed32 =>
    by_cases hshort : data.length < Fixed32.size
    · obtain ⟨after, hread, hadvanced⟩ := h.read_beyond hshort
      have hsingle : Single.read reader = .error (.endOfData Fixed32.size data.length) after := by
        simp only [Single.read, Fixed32.read, bind, EStateM.bind, hread]
      refine .inr ⟨_, _, after, .fixed32 hshort, ?_, hadvanced⟩
      simp only [readPayload, bind, EStateM.bind, reading_of_error hsingle]
    · have hlength : (data.take Fixed32.size).length = Fixed32.size :=
        List.length_take_of_le (by omega)
      have hencode : (Single.mk (Fixed32.decode (data.take Fixed32.size))).encode =
          data.take Fixed32.size := Fixed32.encode_decode hlength
      generalize Single.mk (Fixed32.decode (data.take Fixed32.size)) = value at hencode
      have hdata : data = value.encode ++ data.drop Fixed32.size := by
        rw [hencode, List.take_append_drop]
      rw [hdata] at h
      obtain ⟨after, hread, hadvanced⟩ := Single.yields_read value reader h.offers.of_append_left
      refine .inl ⟨_, _, .fixed32 value, after, hdata, .fixed32 value, ?_, hadvanced⟩
      simp only [readPayload, bind, EStateM.bind, reading_of_ok hread, pure, EStateM.pure]
  | delimited =>
    rcases Varint.writes_or_marked data with ⟨front, rest, length, rfl, hwrites⟩ | hmarked
    · obtain ⟨middle, hread, hmiddle⟩ := hwrites.yields_readLength reader h.offers.of_append_left
      rcases readSpan_cases (h.advance hmiddle) length.toNat with
        ⟨content, beyond, after, rfl, hexact, hspan, hafter⟩ | ⟨hshort, hspan⟩
      · refine .inl ⟨front ++ content, beyond, .delimited content.length, after,
          (List.append_assoc ..).symm, .delimited hwrites hexact, ?_, ?_⟩
        · simp only [readPayload, bind, EStateM.bind, reading_of_ok hread, hspan, hexact]
        · rw [List.length_append, hexact]
          exact hmiddle.trans hafter
      · refine .inr ⟨_, _, middle, .content hwrites hshort, ?_, hmiddle⟩
        simp only [readPayload, bind, EStateM.bind, reading_of_ok hread, hspan]
    · obtain ⟨after, hread, hadvanced⟩ := Varint.readLength_of_marked h hmarked
      refine .inr ⟨_, _, after, .length hmarked, ?_, hadvanced⟩
      simp only [readPayload, bind, EStateM.bind, reading_of_error hread]
  | unsupported raw => exact .inr ⟨_, _, reader, .unsupported raw data, rfl, .refl reader⟩

/-- Either an entry comes first and the walk goes on behind it, or the walk ends here. -/
theorem fromReader_succ (h : reader.Holds data) (fuel : Nat) :
    (∃ front rest number payload after, data = front ++ rest ∧ Entry front number payload ∧
      reader.Advanced front.length after ∧
      fromReader (fuel + 1) reader =
        { fromReader fuel after with
          records :=
            ⟨reader.source.position, number, payload⟩ :: (fromReader fuel after).records }) ∨
    (∃ stop used, Halts reader.source.position data stop used ∧ used ≤ data.length ∧
      fromReader (fuel + 1) reader = ⟨[], stop, data.length - used⟩) := by
  have hleft : ∀ {used : Nat} {after : Reader}, reader.Advanced used after →
      used ≤ data.length ∧ after.unread = data.length - used := by
    intro used after hadvanced
    have hunread := hadvanced.unread
    rw [h.unread] at hunread
    omega
  rcases Varint.writes_or_marked data with ⟨head, rest, raw, rfl, htag⟩ | hmarked
  · obtain ⟨middle, hread, hmiddle⟩ := htag.yields_read reader h.offers.of_append_left
    rcases readPayload_cases (h.advance hmiddle) (Tag.ofRaw raw.toNat).wireType with
      ⟨body, beyond, payload, after, rfl, hfills, hpayload, hafter⟩ |
      ⟨fault, used, after, harises, hpayload, hafter⟩
    · refine .inl ⟨head ++ body, beyond, _, payload, after, (List.append_assoc ..).symm,
        .mk htag hfills, ?_, ?_⟩
      · rw [List.length_append]
        exact hmiddle.trans hafter
      · simp only [fromReader, Tag.read, hread, hpayload]
    · obtain ⟨hused, hunread⟩ := hleft (hmiddle.trans hafter)
      refine .inr ⟨_, _, .faulty htag harises, hused, ?_⟩
      simp only [fromReader, Tag.read, hread, hpayload, hunread]
  · obtain ⟨after, hread, hadvanced⟩ := Varint.read_of_marked h hmarked
    obtain ⟨hused, hunread⟩ := hleft hadvanced
    refine .inr ⟨_, _, .untagged hmarked, hused, ?_⟩
    have hnone : data.length - min Varint.maxSize data.length = 0 ↔
        data.length ≤ Varint.maxSize := by omega
    simp only [fromReader, Tag.read, hread, hunread, hnone]

/-! ### The whole walk -/

/-- The bound on the records is never what ends a walk. -/
theorem fromReader_tiles {fuel : Nat} (h : reader.Holds data) (hfuel : data.length < fuel) :
    ∃ done rest used, data = done ++ rest ∧
      Tiles reader.source.position done (fromReader fuel reader).records ∧
      Halts (reader.source.position + done.length) rest (fromReader fuel reader).stop used ∧
      done.length + used + (fromReader fuel reader).trailing = data.length := by
  induction fuel generalizing reader data with
  | zero => exact absurd hfuel (Nat.not_lt_zero _)
  | succ fuel ih =>
    rcases fromReader_succ h fuel with
      ⟨front, rest, number, payload, after, rfl, hentry, hadvanced, hwalk⟩ |
      ⟨stop, used, hhalts, hused, hwalk⟩
    · have hshorter : rest.length < fuel := by
        have hfront := hentry.length_pos
        rw [List.length_append] at hfuel
        omega
      obtain ⟨done, beyond, used, rfl, htiles, hhalts, htrailing⟩ :=
        ih (h.advance hadvanced) hshorter
      rw [hadvanced.position] at htiles hhalts
      refine ⟨front ++ done, beyond, used, (List.append_assoc ..).symm, ?_, ?_, ?_⟩
      · rw [hwalk]
        exact .cons hentry htiles
      · rw [hwalk, List.length_append, ← Nat.add_assoc]
        exact hhalts
      · rw [hwalk]
        simp only [List.length_append] at htrailing ⊢
        omega
    · refine ⟨[], data, used, rfl, ?_, ?_, ?_⟩
      · rw [hwalk]
        exact .nil _
      · rw [hwalk]
        exact hhalts
      · rw [hwalk]
        show 0 + used + (data.length - used) = data.length
        omega

theorem ofBytes_tiles (data : Bytes) :
    ∃ done rest used, data = done ++ rest ∧ Tiles 0 done (ofBytes data).records ∧
      Halts done.length rest (ofBytes data).stop used ∧
      done.length + used + (ofBytes data).trailing = data.length := by
  obtain ⟨done, rest, used, hdata, htiles, hhalts, htrailing⟩ :=
    fromReader_tiles (Reader.holds_ofBytes data) (Nat.lt_succ_self data.length)
  have hposition : (Reader.ofBytes data).source.position = 0 := rfl
  rw [hposition] at htiles hhalts
  rw [Nat.zero_add] at hhalts
  exact ⟨done, rest, used, hdata, htiles, hhalts, htrailing⟩

end Walk

end EngineConsole
