import EngineConsole.Proofs.Record.Frame
import EngineConsole.Proofs.Record.Room
import EngineConsole.Record.Floats

/-!
# Merging what was written

How a merge proceeds over bytes that an encoder wrote: through a list of floats, through a span and through a sequence of frames. In every case the merge takes exactly these bytes, stops without a failure and has nothing to report.
-/

namespace EngineConsole

namespace Merged

variable {α β : Type}

/-- The merge arrives at `value` from any reader that offers `data`, and takes exactly these bytes. -/
def Takes (merge : Reader → Merged α) (data : Bytes) (value : α) : Prop :=
  ∀ reader : Reader, reader.Offers data →
    ∃ after, merge reader = { value, reader := after } ∧ reader.Advanced data.length after

/-- The merge arrives at `value` from any reader that offers `data` and ends behind it. -/
def Completes (merge : Reader → Merged α) (data : Bytes) (value : α) : Prop :=
  ∀ reader : Reader, reader.Offers data → reader.Ends data.length →
    ∃ after, merge reader = { value, reader := after } ∧ reader.Advanced data.length after

theorem andThen_of_ok (value : α) (reader : Reader) (next : α → Reader → Merged α) :
    andThen { value, reader } next = next value reader := rfl

theorem takes_assign {fetch : Reader → Fetched α} {data : Bytes} {value : α}
    (h : Fetched.Yields fetch data value) (old : β) (place : α → β) :
    Takes (fun reader => (fetch reader).assign old place) data (place value) := by
  intro reader hoffers
  obtain ⟨after, hfetch, hadvanced⟩ := h reader hoffers
  exact ⟨after, by simp only [hfetch, Fetched.assign], hadvanced⟩

theorem Takes.map {merge : Reader → Merged α} {data : Bytes} {value : α}
    (h : Takes merge data value) (f : α → β) :
    Takes (fun reader => (merge reader).map f) data (f value) := by
  intro reader hoffers
  obtain ⟨after, hmerge, hadvanced⟩ := h reader hoffers
  exact ⟨after, by simp only [hmerge, Merged.map], hadvanced⟩

theorem Completes.map {merge : Reader → Merged α} {data : Bytes} {value : α}
    (h : Completes merge data value) (f : α → β) :
    Completes (fun reader => (merge reader).map f) data (f value) := by
  intro reader hoffers hends
  obtain ⟨after, hmerge, hadvanced⟩ := h reader hoffers hends
  exact ⟨after, by simp only [hmerge, Merged.map], hadvanced⟩

end Merged

/-! ### Lists of floats -/

namespace Floats

theorem length_flatMap_encode (values : List Single) :
    (values.flatMap Single.encode).length = values.length * Fixed32.size := by
  induction values with
  | nil => rfl
  | cons value values ih =>
    rw [List.flatMap_cons, List.length_append, ih, Single.length_encode, List.length_cons,
      Nat.succ_mul, Nat.add_comm]

theorem flatten_encode (number : Nat) (values : List Single) :
    (encode number values).flatten =
      if values.isEmpty then []
      else Delimited.header number (values.flatMap Single.encode).length ++
        values.flatMap Single.encode := by
  rw [encode, length_flatMap_encode]
  split
  · rfl
  · rw [List.flatten_cons, List.flatMap_def]

theorem fill_succ_of_offers (number : Nat) {capacity : Nat} (fuel : Nat) {old : List Single}
    {value : Single} {reader : Reader} (hspan : reader.spanLeft ≠ 0) (hroom : old.length < capacity)
    (hoffers : reader.Offers value.encode) :
    ∃ after, fill number capacity (fuel + 1) old reader =
        fill number capacity fuel (old ++ [value]) after ∧
      reader.Advanced value.encode.length after := by
  obtain ⟨after, hread, hadvanced⟩ := Fetched.yields_ofRead (Single.yields_read value) reader hoffers
  refine ⟨after, ?_, hadvanced⟩
  simp only [fill, if_neg hspan, mergeUnpacked_eq, if_neg (Nat.not_le.mpr hroom), hread,
    Fetched.assign, Merged.andThen_of_ok]

theorem fill_of_offers (number : Nat) {capacity : Nat} (values : List Single) {fuel : Nat}
    {old : List Single} {reader : Reader} (hfuel : values.length ≤ fuel)
    (hroom : old.length + values.length ≤ capacity)
    (hleft : reader.spanLeft = values.length * Fixed32.size)
    (hoffers : reader.Offers (values.flatMap Single.encode)) :
    ∃ after, fill number capacity fuel old reader = { value := old ++ values, reader := after } ∧
      reader.Advanced (values.flatMap Single.encode).length after := by
  induction values generalizing fuel old reader with
  | nil =>
    refine ⟨reader, ?_, .refl reader⟩
    rw [List.append_nil]
    cases fuel with
    | zero => rfl
    | succ fuel =>
      rw [fill, if_pos]
      simpa using hleft
  | cons value values ih =>
    obtain ⟨fuel, rfl⟩ : ∃ more, fuel = more + 1 := ⟨fuel - 1, by simp at hfuel; omega⟩
    simp only [List.length_cons] at hfuel hroom hleft
    rw [List.flatMap_cons] at hoffers
    have hspan : reader.spanLeft ≠ 0 := by
      rw [hleft, Nat.succ_mul]
      exact Nat.succ_ne_zero _
    have hfits : old.length < capacity := by omega
    obtain ⟨middle, hstep, hmiddle⟩ :=
      fill_succ_of_offers number fuel hspan hfits hoffers.of_append_left
    have hmiddleLeft : middle.spanLeft = values.length * Fixed32.size := by
      rw [hmiddle.spanLeft, hleft, Single.length_encode, Nat.succ_mul, Nat.add_sub_cancel]
    have hmiddleRoom : (old ++ [value]).length + values.length ≤ capacity := by
      rw [List.length_append, List.length_singleton]
      omega
    obtain ⟨after, hfill, hafter⟩ :=
      ih (Nat.le_of_succ_le_succ hfuel) hmiddleRoom hmiddleLeft (hoffers.advance hmiddle)
    refine ⟨after, ?_, ?_⟩
    · rw [hstep, hfill, List.append_assoc, List.singleton_append]
    · rw [List.flatMap_cons, List.length_append]
      exact hmiddle.trans hafter

theorem takes_mergePacked (number : Nat) {capacity : Nat} {old values : List Single}
    (hcapacity : capacity * 4 < 0x100000000) (hroom : old.length + values.length ≤ capacity) :
    Merged.Takes (mergePacked number capacity old)
      (Delimited.payload (values.flatMap Single.encode)) (old ++ values) := by
  intro reader hoffers
  have hlength := length_flatMap_encode values
  have hsmall : (values.flatMap Single.encode).length < 0x100000000 := by
    rw [hlength, Fixed32.size]
    omega
  obtain ⟨middle, hread, hmiddle⟩ :=
    Varint.yields_readLength hsmall reader hoffers.of_append_left
  have hleft : (middle.enter (values.flatMap Single.encode).length).spanLeft =
      values.length * Fixed32.size := hlength
  have hfuel : values.length ≤ (values.flatMap Single.encode).length := by
    rw [hlength, Fixed32.size]
    omega
  obtain ⟨after, hfill, hafter⟩ := fill_of_offers number values hfuel hroom hleft
    ((hoffers.advance hmiddle).enter (Nat.le_refl _))
  refine ⟨after.leave, ?_, ?_⟩
  · simp only [mergePacked, hread, hfill, Merged.leaveSpan]
  · rw [Delimited.payload, List.length_append]
    exact hmiddle.trans hafter.leave

end Floats

/-! ### Spans -/

namespace Delimited

variable {α : Type} {merge : α → Reader → Merged α} {content : Bytes}

theorem skipRest_of_spanLeft_eq_zero (value : α) {reader : Reader} (h : reader.spanLeft = 0) :
    skipRest value reader = { value, reader } := by
  simp only [skipRest, Fetched.ofRead, Reader.skipSpan, h, Reader.skipBytes, pure, EStateM.pure,
    Fetched.assign]

/-- A merge that takes all of its span leaves nothing to skip. -/
theorem takes_mergeSpan {old value : α} (h : Merged.Completes (merge old) content value) :
    Merged.Takes (mergeSpan merge content.length old) content value := by
  intro reader hoffers
  obtain ⟨after, hmerge, hafter⟩ :=
    h (reader.enter content.length) (hoffers.enter (Nat.le_refl _)) (reader.ends_enter _)
  refine ⟨after.leave, ?_, hafter.leave⟩
  have hleft : after.spanLeft = 0 := by
    rw [hafter.spanLeft]
    exact Nat.sub_self content.length
  simp only [mergeSpan, hmerge, Merged.andThen_of_ok, skipRest_of_spanLeft_eq_zero value hleft,
    Merged.leaveSpan]

theorem takes_merge {old value : α} (hsmall : content.length < 0x100000000)
    (h : Merged.Completes (merge old) content value) :
    Merged.Takes (Delimited.merge merge old) (payload content) value := by
  intro reader hoffers
  obtain ⟨middle, hread, hmiddle⟩ :=
    Varint.yields_readLength hsmall reader hoffers.of_append_left
  obtain ⟨after, hmerge, hafter⟩ := takes_mergeSpan h middle (hoffers.advance hmiddle)
  refine ⟨after, ?_, ?_⟩
  · simp only [Delimited.merge, hread, hmerge]
  · rw [payload, List.length_append]
    exact hmiddle.trans hafter

theorem takes_append (number : Nat) {capacity greatest : Nat} {fresh value : α} {values : List α}
    (hgreatest : greatest < 0x100000000) (hlength : content.length ≤ greatest)
    (hroom : values.length < capacity) (h : Merged.Completes (merge fresh) content value) :
    Merged.Takes (append number capacity greatest fresh merge values) (payload content)
      (values ++ [value]) := by
  intro reader hoffers
  obtain ⟨middle, hread, hmiddle⟩ :=
    Varint.yields_readLength (Nat.lt_of_le_of_lt hlength hgreatest) reader hoffers.of_append_left
  obtain ⟨after, hmerge, hafter⟩ := takes_mergeSpan h middle (hoffers.advance hmiddle)
  refine ⟨after, ?_, ?_⟩
  · simp only [append_eq, hread, if_neg (Nat.not_lt.mpr hlength), if_neg (Nat.not_le.mpr hroom), hmerge,
      Merged.map]
    rfl
  · rw [payload, List.length_append]
    exact hmiddle.trans hafter

/-! ### Sequences of frames -/

variable {step : Tag → α → Reader → Merged α}

/-- Merging the payloads of the frames one after the other leads from the one value to the other. -/
inductive Chain (step : Tag → α → Reader → Merged α) : α → List Frame → α → Prop where
  | nil (value : α) : Chain step value [] value
  | cons {first middle last : α} {frame : Frame} {frames : List Frame} (legible : frame.tag.Legible)
      (takes : Merged.Takes (step frame.tag first) frame.payload middle)
      (others : Chain step middle frames last) : Chain step first (frame :: frames) last

theorem Chain.append {first middle last : α} {left right : List Frame}
    (hleft : Chain step first left middle) (hright : Chain step middle right last) :
    Chain step first (left ++ right) last := by
  induction hleft with
  | nil => exact hright
  | cons legible takes _ ih => exact .cons legible takes (ih hright)

theorem Chain.single {first last : α} {frame : Frame} (legible : frame.tag.Legible)
    (takes : Merged.Takes (step frame.tag first) frame.payload last) :
    Chain step first [frame] last := .cons legible takes (.nil last)

theorem Chain.map {β : Type} {wider : Tag → β → Reader → Merged β} (f : α → β) {first last : α}
    {frames : List Frame} (h : Chain step first frames last)
    (hwider : ∀ frame ∈ frames, ∀ value reader,
      wider frame.tag (f value) reader = (step frame.tag value reader).map f) :
    Chain wider (f first) frames (f last) := by
  induction h with
  | nil value => exact .nil (f value)
  | @cons first middle last frame frames legible takes _ ih =>
    refine .cons legible ?_ (ih fun frame hframe => hwider frame (List.mem_cons_of_mem _ hframe))
    have heq : wider frame.tag (f first) = fun reader => (step frame.tag first reader).map f :=
      funext (hwider frame List.mem_cons_self first)
    rw [heq]
    exact takes.map f

/-- The record loop follows a chain to its end and stops there. -/
theorem Chain.completes {first last : α} {frames : List Frame} (h : Chain step first frames last) :
    ∀ fuel, frames.length < fuel →
      Merged.Completes (mergeRecords step fuel first) (Frame.bytesAll frames) last := by
  induction h with
  | nil value =>
    intro fuel hfuel reader _ hends
    obtain ⟨fuel, rfl⟩ : ∃ more, fuel = more + 1 := ⟨fuel - 1, by omega⟩
    obtain ⟨after, htag, hafter⟩ := Tag.read_of_ends hends
    exact ⟨after, by simp only [mergeRecords, htag], hafter⟩
  | @cons first middle last frame frames legible takes _ ih =>
    intro fuel hfuel reader hoffers hends
    rw [List.length_cons] at hfuel
    obtain ⟨fuel, rfl⟩ : ∃ more, fuel = more + 1 := ⟨fuel - 1, by omega⟩
    rw [Frame.bytesAll, Frame.bytes_eq, List.append_assoc] at hoffers hends ⊢
    rw [List.length_append, List.length_append] at hends ⊢
    obtain ⟨behindTag, htag, hbehindTag⟩ := Tag.read_of_offers legible hoffers.of_append_left
    have hpayload := hoffers.advance hbehindTag
    obtain ⟨behindFrame, hstep, hbehindFrame⟩ := takes behindTag hpayload.of_append_left
    have hothers := hpayload.advance hbehindFrame
    have hends' := (hends.advance hbehindTag).advance hbehindFrame
    -- what is offered and where it ends both move on with the reader, so the rest is the same case
    obtain ⟨after, hrecords, hafter⟩ := ih fuel (by omega) behindFrame hothers hends'
    refine ⟨after, ?_, ?_⟩
    · simp only [mergeRecords, htag, hstep, Merged.andThen_of_ok, hrecords]
    · exact hbehindTag.trans (hbehindFrame.trans hafter)

/-- The bytes that are unread bound the records that are left, so the loop that starts with as many steps as that gets through. -/
theorem Chain.completes_unread {first last : α} {frames : List Frame}
    (h : Chain step first frames last) :
    Merged.Completes (fun reader => mergeRecords step (reader.unread + 1) first reader)
      (Frame.bytesAll frames) last := by
  intro reader hoffers hends
  have hframes := Frame.length_le_length_bytesAll frames
  have hunread : (Frame.bytesAll frames).length ≤ reader.unread := hoffers.next.length_le
  exact h.completes (reader.unread + 1) (by omega) reader hoffers hends

end Delimited

end EngineConsole
