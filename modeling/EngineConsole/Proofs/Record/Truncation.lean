import EngineConsole.Proofs.Record.Merge
import EngineConsole.Proofs.Record.Passage
import Mathlib.Algebra.Ring.Nat

/-!
# Records that break off

A read or a merge that takes certain bytes fails where these break off. For if it succeeded, it would have taken bytes with which it succeeds anywhere, and so it would take no more than these of the whole as well. Behind a cut in a sequence of frames there is therefore no frame that can be merged: the frames that end before the cut are all there is, and the one that is cut is either in the way or, if the cut is within its tag, not there at all.
-/

namespace EngineConsole

/-! ### The records before a cut -/

/-- The longest front of a list whose sizes add up to no more than `count`. -/
def fitting {α : Type} (size : α → Nat) : Nat → List α → List α
  | _, [] => []
  | count, item :: items =>
    if size item ≤ count then item :: fitting size (count - size item) items else []

section Fitting

variable {α β : Type} {size : α → Nat}

theorem fitting_sublist (size : α → Nat) (count : Nat) (items : List α) :
    (fitting size count items).Sublist items := by
  induction items generalizing count with
  | nil => exact .slnil
  | cons item items ih =>
    rw [fitting]
    split
    · exact (ih _).cons_cons item
    · exact List.nil_sublist _

theorem fitting_map (size : β → Nat) (f : α → β) (count : Nat) (items : List α) :
    fitting size count (items.map f) = (fitting (fun item => size (f item)) count items).map f := by
  induction items generalizing count with
  | nil => rfl
  | cons item items ih =>
    rw [List.map_cons, fitting, fitting]
    split
    · rw [List.map_cons, ih]
    · rfl

theorem fitting_zero (hsize : ∀ item, 0 < size item) (items : List α) :
    fitting size 0 items = [] := by
  cases items with
  | nil => rfl
  | cons item items => rw [fitting, if_neg (Nat.not_le.mpr (hsize item))]

/-- Of two lists, the second one has the room that the first one leaves. -/
theorem fitting_append (hsize : ∀ item, 0 < size item) (count : Nat) (left right : List α) :
    fitting size count (left ++ right) =
      fitting size count left ++ fitting size (count - (left.map size).sum) right := by
  induction left generalizing count with
  | nil => rfl
  | cons item left ih =>
    rw [List.cons_append, fitting, fitting, List.map_cons, List.sum_cons]
    split
    · rw [ih, List.cons_append, Nat.sub_add_eq]
    · have hnone : count - (size item + (left.map size).sum) = 0 := by omega
      rw [hnone, fitting_zero hsize, List.append_nil]

theorem fitting_of_le {count : Nat} {items : List α} (h : (items.map size).sum ≤ count) :
    fitting size count items = items := by
  induction items generalizing count with
  | nil => rfl
  | cons item items ih =>
    rw [List.map_cons, List.sum_cons] at h
    rw [fitting, if_pos (by omega), ih (by omega)]

end Fitting

namespace Frame

theorem length_bytes_pos (frame : Frame) : 0 < frame.bytes.length := by
  have htag := List.length_pos_iff.mpr (Tag.encode_ne_nil frame.tag)
  rw [bytes_eq, List.length_append]
  omega

theorem sum_length_bytes (frames : List Frame) :
    (frames.map fun frame => frame.bytes.length).sum = (bytesAll frames).length := by
  rw [bytesAll_eq_flatMap, List.length_flatMap]

def whole (count : Nat) (frames : List Frame) : List Frame :=
  fitting (fun frame => frame.bytes.length) count frames

theorem whole_append (count : Nat) (left right : List Frame) :
    whole count (left ++ right) =
      whole count left ++ whole (count - (bytesAll left).length) right := by
  rw [whole, fitting_append length_bytes_pos, sum_length_bytes]
  rfl

theorem whole_of_le {count : Nat} {frames : List Frame} (h : (bytesAll frames).length ≤ count) :
    whole count frames = frames := by
  apply fitting_of_le
  rwa [sum_length_bytes]

theorem whole_of_lt {count : Nat} {frames : List Frame} (hframes : frames.length ≤ 1)
    (h : count < (bytesAll frames).length) : whole count frames = [] := by
  cases frames with
  | nil => rfl
  | cons frame frames =>
    obtain rfl : frames = [] := by
      apply List.eq_nil_of_length_eq_zero
      rw [List.length_cons] at hframes
      omega
    rw [bytesAll_singleton] at h
    rw [whole, fitting, if_neg (Nat.not_le.mpr h)]

/-- Of frames that are cut in one of them, those before it are left. -/
theorem whole_of_cut {done rest : List Frame} {frame : Frame} {count : Nat}
    (hbefore : (bytesAll done).length ≤ count)
    (hafter : count < (bytesAll done).length + frame.bytes.length) :
    whole count (done ++ frame :: rest) = done := by
  have hbroken : ¬ frame.bytes.length ≤ count - (bytesAll done).length := by omega
  rw [whole_append, whole_of_le hbefore, whole, fitting, if_neg hbroken, List.append_nil]

/-- The cut is at the end of the frames, at their beginning or between two of them. -/
def Boundary (frames : List Frame) (count : Nat) : Prop :=
  ∃ done rest, frames = done ++ rest ∧ count = (bytesAll done).length

/-- The cut is strictly inside the tag of a frame. -/
def InsideTag (frames : List Frame) (count : Nat) : Prop :=
  ∃ done frame rest, frames = done ++ frame :: rest ∧ (bytesAll done).length < count ∧
    count < (bytesAll done).length + (Tag.encode frame.tag).length

/-- The cut is behind the tag of a frame and before its end, at whatever depth. -/
def InsidePayload (frames : List Frame) (count : Nat) : Prop :=
  ∃ done frame rest, frames = done ++ frame :: rest ∧
    (bytesAll done).length + (Tag.encode frame.tag).length ≤ count ∧
    count < (bytesAll done).length + frame.bytes.length

theorem Boundary.take_eq {frames : List Frame} {count : Nat} (h : Boundary frames count) :
    (bytesAll frames).take count = bytesAll (whole count frames) := by
  obtain ⟨done, rest, rfl, rfl⟩ := h
  have hnone : whole 0 rest = [] := fitting_zero length_bytes_pos rest
  rw [whole_append, whole_of_le (Nat.le_refl _), Nat.sub_self, hnone, List.append_nil,
    bytesAll_append, List.take_left]

theorem cut_cases {frames : List Frame} {count : Nat} (h : count ≤ (bytesAll frames).length) :
    Boundary frames count ∨ InsideTag frames count ∨ InsidePayload frames count := by
  induction frames generalizing count with
  | nil => exact .inl ⟨[], [], rfl, Nat.le_zero.mp h⟩
  | cons frame frames ih =>
    rw [bytesAll, List.length_append] at h
    rcases Nat.lt_or_ge count frame.bytes.length with hfirst | hlater
    · -- the cut is in the first frame
      rcases Nat.eq_zero_or_pos count with rfl | hpos
      · exact .inl ⟨[], frame :: frames, rfl, rfl⟩
      · rcases Nat.lt_or_ge count (Tag.encode frame.tag).length with htag | htag
        · refine .inr (.inl ⟨[], frame, frames, rfl, hpos, ?_⟩)
          rwa [bytesAll, List.length_nil, Nat.zero_add]
        · refine .inr (.inr ⟨[], frame, frames, rfl, ?_, ?_⟩)
          · rwa [bytesAll, List.length_nil, Nat.zero_add]
          · rwa [bytesAll, List.length_nil, Nat.zero_add]
    · -- the cut is behind the first frame, so it is one of the others
      have hlength : ∀ done, (bytesAll (frame :: done)).length =
          frame.bytes.length + (bytesAll done).length := fun done => by
        rw [bytesAll, List.length_append]
      rcases ih (show count - frame.bytes.length ≤ (bytesAll frames).length by omega) with
        ⟨done, rest, rfl, hcount⟩ | ⟨done, next, rest, rfl, hbefore, hafter⟩ |
        ⟨done, next, rest, rfl, hbefore, hafter⟩
      · exact .inl ⟨frame :: done, rest, rfl, by rw [hlength]; omega⟩
      · exact .inr (.inl ⟨frame :: done, next, rest, rfl, by rw [hlength]; omega,
          by rw [hlength]; omega⟩)
      · exact .inr (.inr ⟨frame :: done, next, rest, rfl, by rw [hlength]; omega,
          by rw [hlength]; omega⟩)

theorem take_bytesAll {done rest : List Frame} {frame : Frame} {count : Nat}
    (hbefore : (bytesAll done).length ≤ count)
    (hafter : count ≤ (bytesAll done).length + frame.bytes.length) :
    (bytesAll (done ++ frame :: rest)).take count =
      bytesAll done ++ frame.bytes.take (count - (bytesAll done).length) := by
  rw [bytesAll_append, bytesAll, List.take_append, List.take_of_length_le hbefore,
    List.take_append_of_le_length (by omega)]

end Frame

/-! ### What breaks off cannot be read -/

section Broken

variable {α : Type} {reader : Reader} {data : Bytes}

theorem Reader.Delivered.length_lt {after : Reader} {part : Bytes} (h : reader.Delivered part after)
    (hrest : reader.source.rest <+: data) (hshort : reader.unread < data.length) :
    part <+: data ∧ part.length < data.length :=
  ⟨h.next.trans hrest, Nat.lt_of_le_of_lt h.next.length_le hshort⟩

/-- A tag that breaks off is no tag. -/
theorem Tag.read_of_broken {tag : Tag} (h : tag.Legible) (hrest : reader.source.rest <+: encode tag)
    (hshort : reader.unread < (encode tag).length) : (read reader).1 = none := by
  cases hread : read reader with
  | mk found after =>
    cases found with
    | none => rfl
    | some other =>
      obtain ⟨part, hdelivered, hrepeats⟩ := Tag.repeatable_read hread
      obtain ⟨⟨rest, hpart⟩, hless⟩ := hdelivered.length_lt hrest hshort
      -- of the whole tag, the reading would take the part and nothing else
      have hoffers := Reader.offers_ofBytes (encode tag)
      have hoffersPart : (Reader.ofBytes (encode tag)).Offers (part ++ rest) := hpart ▸ hoffers
      obtain ⟨whole, hwhole, hadvanced⟩ := read_of_offers h hoffers
      obtain ⟨front, hfront, hadvanced'⟩ := hrepeats _ hoffersPart.of_append_left
      rw [hwhole] at hfront
      cases hfront
      have hcount := hadvanced.count_eq hadvanced'
      omega

theorem Merged.Takes.error_of_broken {merge : Reader → Merged α} {value : α}
    (h : Merged.Takes merge data value) (hrepeatable : Merged.Repeatable merge)
    (hwilling : reader.source.supply.Willing) (hrest : reader.source.rest <+: data)
    (hshort : reader.unread < data.length) : (merge reader).error ≠ none := by
  intro hnone
  obtain ⟨part, hdelivered, hrepeats⟩ := hrepeatable hwilling hnone
  obtain ⟨⟨rest, hpart⟩, hless⟩ := hdelivered.length_lt hrest hshort
  have hoffers := Reader.offers_ofBytes data
  have hoffersPart : (Reader.ofBytes data).Offers (part ++ rest) := hpart ▸ hoffers
  obtain ⟨whole, hwhole, hadvanced⟩ := h (.ofBytes data) hoffers
  obtain ⟨front, hfront, hadvanced'⟩ := hrepeats _ hoffersPart.of_append_left
  rw [hwhole] at hfront
  obtain rfl : whole = front := congrArg Merged.reader hfront
  have hcount := hadvanced.count_eq hadvanced'
  omega

end Broken

/-! ### Chains -/

namespace Delimited

variable {α : Type} {step : Tag → α → Reader → Merged α} {first last : α}

/-- A chain can be cut between any two frames. -/
theorem Chain.of_append {left right : List Frame} (h : Chain step first (left ++ right) last) :
    ∃ middle, Chain step first left middle ∧ Chain step middle right last := by
  induction left generalizing first with
  | nil => exact ⟨first, .nil first, h⟩
  | cons frame left ih =>
    cases h with
    | cons legible takes others =>
      obtain ⟨middle, hleft, hright⟩ := ih others
      exact ⟨middle, .cons legible takes hleft, hright⟩

theorem Chain.passes {frames : List Frame} (h : Chain step first frames last) {reader : Reader}
    (hoffers : reader.Offers (Frame.bytesAll frames)) :
    ∃ after, Passes step first reader last after ∧
      reader.Advanced (Frame.bytesAll frames).length after := by
  induction h generalizing reader with
  | nil value => exact ⟨reader, .nil value reader, .refl reader⟩
  | @cons first middle last frame frames legible takes _ ih =>
    rw [Frame.bytesAll, Frame.bytes_eq, List.append_assoc] at hoffers ⊢
    obtain ⟨behindTag, htag, hbehindTag⟩ := Tag.read_of_offers legible hoffers.of_append_left
    have hpayload := hoffers.advance hbehindTag
    obtain ⟨behindFrame, hstep, hbehindFrame⟩ := takes behindTag hpayload.of_append_left
    obtain ⟨after, hothers, hafter⟩ := ih (hpayload.advance hbehindFrame)
    refine ⟨after, .cons htag ?_ ?_, ?_⟩
    · rw [hstep]
    · rw [hstep]
      exact hothers
    · rw [List.length_append, List.length_append]
      exact hbehindTag.trans (hbehindFrame.trans hafter)

end Delimited

end EngineConsole
