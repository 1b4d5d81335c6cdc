import EngineConsole.Proofs.Record.Merge

/-!
# Merges that are stopped

A merge takes what an encoder wrote up to the first payload that is refused. There it stops, and with it every merge around it: the span in which the payload stands, the record loop of the message and so on outwards, all of them with the same failure.
-/

namespace EngineConsole

namespace Merged

variable {α β : Type} {failure : DecodeError → Prop}

/-- From any reader that offers `data`, the merge stops with such a failure. -/
def Fails (failure : DecodeError → Prop) (merge : Reader → Merged α) (data : Bytes) : Prop :=
  ∀ reader : Reader, reader.Offers data → ∃ error, (merge reader).error = some error ∧ failure error

theorem andThen_of_error {first : Merged α} {error : DecodeError} (h : first.error = some error)
    (next : α → Reader → Merged α) : first.andThen next = first := by
  rw [andThen, h]

theorem Fails.map {merge : Reader → Merged α} {data : Bytes} (h : Fails failure merge data)
    (f : α → β) : Fails failure (fun reader => (merge reader).map f) data := h

end Merged

namespace Delimited

variable {α : Type} {merge : α → Reader → Merged α} {content : Bytes}
variable {failure : DecodeError → Prop}

/-! ### Spans -/

theorem fails_mergeSpan {old : α} (h : Merged.Fails failure (merge old) content) :
    Merged.Fails failure (mergeSpan merge content.length old) content := by
  intro reader hoffers
  obtain ⟨error, herror, hfailure⟩ :=
    h (reader.enter content.length) (hoffers.enter (Nat.le_refl _))
  refine ⟨error, ?_, hfailure⟩
  rw [mergeSpan, Merged.andThen_of_error herror]
  exact herror

theorem fails_merge {old : α} (hsmall : content.length < 0x100000000)
    (h : Merged.Fails failure (merge old) content) :
    Merged.Fails failure (Delimited.merge merge old) (payload content) := by
  intro reader hoffers
  obtain ⟨middle, hread, hmiddle⟩ :=
    Varint.yields_readLength hsmall reader hoffers.of_append_left
  rw [Delimited.merge, hread]
  exact fails_mergeSpan h middle (hoffers.advance hmiddle)

/-! ### Sequences of frames -/

variable {step : Tag → α → Reader → Merged α}

/-- Merging the payloads of the frames one after the other stops at one of them with such a failure. -/
inductive Blocked (failure : DecodeError → Prop) (step : Tag → α → Reader → Merged α) :
    α → List Frame → Prop where
  | here {first : α} {frame : Frame} {frames : List Frame} (legible : frame.tag.Legible)
      (fails : Merged.Fails failure (step frame.tag first) frame.payload) :
      Blocked failure step first (frame :: frames)
  | later {first middle : α} {frame : Frame} {frames : List Frame} (legible : frame.tag.Legible)
      (takes : Merged.Takes (step frame.tag first) frame.payload middle)
      (others : Blocked failure step middle frames) : Blocked failure step first (frame :: frames)

theorem Blocked.append {first : α} {left : List Frame} (h : Blocked failure step first left)
    (right : List Frame) : Blocked failure step first (left ++ right) := by
  induction h with
  | here legible fails => exact .here legible fails
  | later legible takes _ ih => exact .later legible takes ih

theorem Chain.blocked {first middle : α} {left right : List Frame}
    (hleft : Chain step first left middle) (hright : Blocked failure step middle right) :
    Blocked failure step first (left ++ right) := by
  induction hleft with
  | nil => exact hright
  | cons legible takes _ ih => exact .later legible takes (ih hright)

theorem Blocked.map {β : Type} {wider : Tag → β → Reader → Merged β} (f : α → β) {first : α}
    {frames : List Frame} (h : Blocked failure step first frames)
    (hwider : ∀ frame ∈ frames, ∀ value reader,
      wider frame.tag (f value) reader = (step frame.tag value reader).map f) :
    Blocked failure wider (f first) frames := by
  induction h with
  | @here first frame frames legible fails =>
    refine .here legible ?_
    rw [show wider frame.tag (f first) = fun reader => (step frame.tag first reader).map f from
      funext (hwider frame List.mem_cons_self first)]
    exact fails.map f
  | @later first middle frame frames legible takes _ ih =>
    refine .later legible ?_ (ih fun frame hframe => hwider frame (List.mem_cons_of_mem _ hframe))
    rw [show wider frame.tag (f first) = fun reader => (step frame.tag first reader).map f from
      funext (hwider frame List.mem_cons_self first)]
    exact takes.map f

/-- The record loop follows the frames to the one that is refused and stops there. -/
theorem Blocked.fails {first : α} {frames : List Frame} (h : Blocked failure step first frames) :
    ∀ fuel, frames.length < fuel →
      Merged.Fails failure (mergeRecords step fuel first) (Frame.bytesAll frames) := by
  induction h with
  | @here first frame frames legible fails =>
    intro fuel hfuel reader hoffers
    obtain ⟨fuel, rfl⟩ : ∃ more, fuel = more + 1 := ⟨fuel - 1, by omega⟩
    rw [Frame.bytesAll, Frame.bytes_eq, List.append_assoc] at hoffers
    obtain ⟨behindTag, htag, hbehindTag⟩ := Tag.read_of_offers legible hoffers.of_append_left
    obtain ⟨error, herror, hfailure⟩ :=
      fails behindTag (hoffers.advance hbehindTag).of_append_left
    refine ⟨error, ?_, hfailure⟩
    simp only [mergeRecords, htag, Merged.andThen_of_error herror, herror]
  | @later first middle frame frames legible takes _ ih =>
    intro fuel hfuel reader hoffers
    rw [List.length_cons] at hfuel
    obtain ⟨fuel, rfl⟩ : ∃ more, fuel = more + 1 := ⟨fuel - 1, by omega⟩
    rw [Frame.bytesAll, Frame.bytes_eq, List.append_assoc] at hoffers
    obtain ⟨behindTag, htag, hbehindTag⟩ := Tag.read_of_offers legible hoffers.of_append_left
    have hpayload := hoffers.advance hbehindTag
    obtain ⟨behindFrame, hstep, hbehindFrame⟩ := takes behindTag hpayload.of_append_left
    obtain ⟨error, herror, hfailure⟩ :=
      ih fuel (by omega) behindFrame (hpayload.advance hbehindFrame)
    refine ⟨error, ?_, hfailure⟩
    simp only [mergeRecords, htag, hstep, Merged.andThen_of_ok, herror]

theorem Blocked.fails_unread {first : α} {frames : List Frame}
    (h : Blocked failure step first frames) :
    Merged.Fails failure (fun reader => mergeRecords step (reader.unread + 1) first reader)
      (Frame.bytesAll frames) := by
  intro reader hoffers
  have hframes := Frame.length_le_length_bytesAll frames
  have hunread : (Frame.bytesAll frames).length ≤ reader.unread := hoffers.next.length_le
  exact h.fails (reader.unread + 1) (by omega) reader hoffers

end Delimited

end EngineConsole
