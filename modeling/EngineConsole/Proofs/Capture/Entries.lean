import EngineConsole.Capture.Walk
import EngineConsole.Proofs.Number.Spelling

/-!
# Complete entries

What a payload without a schema consists of, said of its bytes and not of how they are read: an entry is a tag, spelled in any way that can be read, and behind it a whole payload of the wire type that the tag names. Entries tile some bytes if they stand one behind the other with nothing before, between or behind them. No entry goes on into another one, so among the tilings of the bytes at a given place there is a longest one, and it is the one behind which no entry begins.
-/

namespace EngineConsole

/-! ### Entries -/

namespace WalkedPayload

/-- The bytes are a whole payload of the wire type. Nothing is a whole payload of a wire type that is not supported. -/
inductive Fills : WireType → Bytes → WalkedPayload → Prop where
  | varint {bytes : Bytes} {value : UInt32} (writes : Varint.Writes bytes value) :
      Fills .varint bytes (.varint value)
  | fixed32 (value : Single) : Fills .fixed32 value.encode (.fixed32 value)
  | delimited {front content : Bytes} {length : UInt32} (writes : Varint.Writes front length)
      (exact : content.length = length.toNat) :
      Fills .delimited (front ++ content) (.delimited content.length)

theorem Fills.unique {wireType : WireType} {front other rest rest' : Bytes}
    {payload payload' : WalkedPayload} (h : Fills wireType front payload)
    (h' : Fills wireType other payload') (heq : front ++ rest = other ++ rest') :
    front = other ∧ payload = payload' := by
  cases h with
  | varint writes =>
    obtain ⟨writes'⟩ := h'
    obtain ⟨rfl, rfl⟩ := writes.unique writes' heq
    exact ⟨rfl, rfl⟩
  | fixed32 value =>
    obtain _ | ⟨value'⟩ := h'
    have hencode : value.encode = value'.encode := (List.append_inj heq rfl).1
    exact ⟨hencode, congrArg WalkedPayload.fixed32 (Single.encode_injective hencode)⟩
  | delimited writes exact =>
    obtain _ | _ | ⟨writes', exact'⟩ := h'
    rw [List.append_assoc, List.append_assoc] at heq
    obtain ⟨rfl, rfl⟩ := writes.unique writes' heq
    have hrest := List.append_cancel_left heq
    obtain ⟨rfl, _⟩ := List.append_inj hrest (exact.trans exact'.symm)
    exact ⟨rfl, rfl⟩

end WalkedPayload

inductive Entry : Bytes → Nat → WalkedPayload → Prop where
  | mk {head body : Bytes} {raw : UInt32} {payload : WalkedPayload} (tag : Varint.Writes head raw)
      (fills : payload.Fills (Tag.ofRaw raw.toNat).wireType body) :
      Entry (head ++ body) (Tag.ofRaw raw.toNat).number payload

theorem Entry.length_pos {bytes : Bytes} {number : Nat} {payload : WalkedPayload}
    (h : Entry bytes number payload) : 0 < bytes.length := by
  obtain ⟨tag, _⟩ := h
  have hhead := tag.length_pos
  rw [List.length_append]
  omega

theorem Entry.unique {front other rest rest' : Bytes} {number number' : Nat}
    {payload payload' : WalkedPayload} (h : Entry front number payload)
    (h' : Entry other number' payload') (heq : front ++ rest = other ++ rest') :
    front = other ∧ number = number' ∧ payload = payload' := by
  obtain ⟨tag, fills⟩ := h
  obtain ⟨tag', fills'⟩ := h'
  rw [List.append_assoc, List.append_assoc] at heq
  obtain ⟨rfl, rfl⟩ := tag.unique tag' heq
  obtain ⟨rfl, rfl⟩ := fills.unique fills' (List.append_cancel_left heq)
  exact ⟨rfl, rfl, rfl⟩

/-- No entry begins with the first of the bytes and ends among them. -/
def EntryFree (bytes : Bytes) : Prop :=
  ∀ front number payload, front <+: bytes → ¬ Entry front number payload

/-! ### Tilings -/

def WalkedRecord.shift (count : Nat) (record : WalkedRecord) : WalkedRecord :=
  { record with offset := record.offset + count }

/-- The bytes, of which the first has the given offset, are the entries one behind the other: each record has the offset at which its entry begins, and the next entry begins where this one ends. -/
inductive Tiles : Nat → Bytes → List WalkedRecord → Prop where
  | nil (offset : Nat) : Tiles offset [] []
  | cons {offset number : Nat} {front rest : Bytes} {payload : WalkedPayload}
      {records : List WalkedRecord} (entry : Entry front number payload)
      (others : Tiles (offset + front.length) rest records) :
      Tiles offset (front ++ rest) (⟨offset, number, payload⟩ :: records)

variable {offset : Nat} {bytes done part left right rest rest' : Bytes}
variable {records others more : List WalkedRecord}

theorem Tiles.single {number : Nat} {payload : WalkedPayload} (entry : Entry bytes number payload) :
    Tiles offset bytes [⟨offset, number, payload⟩] := by
  have htiles : Tiles offset (bytes ++ []) [⟨offset, number, payload⟩] := .cons entry (.nil _)
  rwa [List.append_nil] at htiles

theorem Tiles.append (h : Tiles offset left records)
    (hmore : Tiles (offset + left.length) right more) :
    Tiles offset (left ++ right) (records ++ more) := by
  induction h with
  | nil offset => exact hmore
  | cons entry _ ih =>
    rw [List.length_append, ← Nat.add_assoc] at hmore
    rw [List.append_assoc]
    exact .cons entry (ih hmore)

theorem Tiles.shift (h : Tiles offset bytes records) (count : Nat) :
    Tiles (offset + count) bytes (records.map (·.shift count)) := by
  induction h with
  | nil offset => exact .nil _
  | cons entry _ ih =>
    rw [Nat.add_right_comm] at ih
    exact .cons entry ih

/-- The tiling behind which no entry begins goes on for as long as any other one. -/
theorem Tiles.longest (h : Tiles offset done records) (hfree : EntryFree rest)
    (hpart : Tiles offset part others) (hwithin : part <+: done ++ rest) :
    part <+: done ∧ others <+: records := by
  induction hpart generalizing done records with
  | nil offset => exact ⟨List.nil_prefix, List.nil_prefix⟩
  | @cons offset number front tail payload others entry _ ih =>
    obtain ⟨beyond, hbeyond⟩ := hwithin
    rw [List.append_assoc] at hbeyond
    cases h with
    | nil _ => exact absurd entry (hfree front number payload ⟨tail ++ beyond, hbeyond⟩)
    | cons entry' tiles' =>
      rw [List.append_assoc] at hbeyond
      obtain ⟨rfl, rfl, rfl⟩ := entry.unique entry' hbeyond
      obtain ⟨hdone, hrecords⟩ := ih tiles' ⟨beyond, List.append_cancel_left hbeyond⟩
      exact ⟨(List.prefix_append_right_inj front).mpr hdone,
        (List.prefix_cons_inj _).mpr hrecords⟩

theorem Tiles.unique (h : Tiles offset done records) (hfree : EntryFree rest)
    (h' : Tiles offset part others) (hfree' : EntryFree rest')
    (heq : done ++ rest = part ++ rest') :
    done = part ∧ records = others := by
  obtain ⟨hpart, hothers⟩ := h.longest hfree h' (heq ▸ List.prefix_append part rest')
  obtain ⟨hdone, hrecords⟩ := h'.longest hfree' h (heq ▸ List.prefix_append done rest)
  exact ⟨hdone.eq_of_length_le hpart.length_le, hrecords.eq_of_length_le hothers.length_le⟩

end EngineConsole
