import EngineConsole.Proofs.Record.Obstruction

/-!
# Records in another form

The same values can be written in another form: a list of floats as one record for each float, and whatever is around it behind a length that has grown accordingly. What a merge makes of such records is told by a list of errors, in the order in which it meets their causes. Where the list is empty, the merge takes all of the bytes and arrives at the value; else it stops with the first error.
-/

namespace EngineConsole

namespace Merged

variable {α β : Type} {merge : Reader → Merged α} {data : Bytes} {value : α}
variable {errors : List DecodeError}

/-- From any reader that offers `data`, the merge stops with the first of the errors. Where there is none, it takes exactly these bytes and arrives at `value`. -/
def Settles (merge : Reader → Merged α) (data : Bytes) (value : α) : List DecodeError → Prop
  | [] => Takes merge data value
  | error :: _ => Fails (· = error) merge data

/-- The same of a merge that goes on until the data end. -/
def Concludes (merge : Reader → Merged α) (data : Bytes) (value : α) : List DecodeError → Prop
  | [] => Completes merge data value
  | error :: _ => Fails (· = error) merge data

theorem Settles.map (h : Settles merge data value errors) (f : α → β) :
    Settles (fun reader => (merge reader).map f) data (f value) errors := by
  cases errors with
  | nil => exact Takes.map h f
  | cons error others => exact Fails.map h f

theorem Concludes.map (h : Concludes merge data value errors) (f : α → β) :
    Concludes (fun reader => (merge reader).map f) data (f value) errors := by
  cases errors with
  | nil => exact Completes.map h f
  | cons error others => exact Fails.map h f

end Merged

namespace Delimited

/-! ### Spans -/

variable {α : Type} {merge : α → Reader → Merged α} {content : Bytes} {fresh value : α}
variable {errors : List DecodeError}

theorem settles_merge (hsmall : content.length < 0x100000000)
    (h : Merged.Concludes (merge fresh) content value errors) :
    Merged.Settles (Delimited.merge merge fresh) (payload content) value errors := by
  cases errors with
  | nil => exact takes_merge hsmall h
  | cons error others => exact fails_merge hsmall h

/-- The errors of an element: it is refused as a whole if it is too long, else only what is inside of it can be. -/
def elementErrors (number greatest length : Nat) (inside : List DecodeError) : List DecodeError :=
  if greatest < length then [.lengthExceeded number length greatest] else inside

theorem settles_append (number : Nat) {capacity greatest : Nat} {values : List α}
    (hgreatest : greatest < 0x100000000) (hsmall : content.length < 0x100000000)
    (hroom : values.length < capacity) (h : Merged.Concludes (merge fresh) content value errors) :
    Merged.Settles (append number capacity greatest fresh merge values) (payload content)
      (values ++ [value]) (elementErrors number greatest content.length errors) := by
  rw [elementErrors]
  by_cases hlong : greatest < content.length
  · rw [if_pos hlong]
    intro reader hoffers
    obtain ⟨middle, hread, _⟩ := Varint.yields_readLength hsmall reader hoffers.of_append_left
    exact ⟨_, by rw [append_eq, hread]; simp only [if_pos hlong], rfl⟩
  · rw [if_neg hlong]
    cases errors with
    | nil => exact takes_append number hgreatest (Nat.not_lt.mp hlong) hroom h
    | cons error others =>
      intro reader hoffers
      obtain ⟨middle, hread, hmiddle⟩ :=
        Varint.yields_readLength hsmall reader hoffers.of_append_left
      obtain ⟨_, herror, rfl⟩ := fails_mergeSpan h middle (hoffers.advance hmiddle)
      refine ⟨_, ?_, rfl⟩
      simp only [append_eq, hread, if_neg hlong, if_neg (Nat.not_le.mpr hroom), Merged.map, herror]

/-! ### Sequences of frames -/

/-- Merging the payloads of the frames one after the other stops with the first of the errors, or leads from the one value to the other if there is none. -/
def Course (step : Tag → α → Reader → Merged α) (first : α) (frames : List Frame) (last : α) :
    List DecodeError → Prop
  | [] => Chain step first frames last
  | error :: _ => Blocked (· = error) step first frames

variable {step : Tag → α → Reader → Merged α} {first middle last : α} {left right : List Frame}
variable {others : List DecodeError}

theorem Course.single {frame : Frame} (legible : frame.tag.Legible)
    (settles : Merged.Settles (step frame.tag first) frame.payload last errors) :
    Course step first [frame] last errors := by
  cases errors with
  | nil => exact Chain.single legible settles
  | cons error others => exact Blocked.here legible settles

theorem Course.append (hleft : Course step first left middle errors)
    (hright : Course step middle right last others) :
    Course step first (left ++ right) last (errors ++ others) := by
  cases errors with
  | cons error errors => exact Blocked.append hleft right
  | nil =>
    cases others with
    | nil => exact Chain.append hleft hright
    | cons error others => exact Chain.blocked hleft hright

theorem Course.map {β : Type} {wider : Tag → β → Reader → Merged β} (f : α → β)
    (h : Course step first left last errors)
    (hwider : ∀ frame ∈ left, ∀ value reader,
      wider frame.tag (f value) reader = (step frame.tag value reader).map f) :
    Course wider (f first) left (f last) errors := by
  cases errors with
  | nil => exact Chain.map f h hwider
  | cons error others => exact Blocked.map f h hwider

/-- The record loop does what its records do. -/
theorem Course.concludes (h : Course step first left last errors) :
    Merged.Concludes (fun reader => mergeRecords step (reader.unread + 1) first reader)
      (Frame.bytesAll left) last errors := by
  cases errors with
  | nil => exact Chain.completes_unread h
  | cons error others => exact Blocked.fails_unread h

/-! ### Lists of messages -/

def enclose (number : Nat) (content : List Frame) : Frame :=
  .message number (Frame.bytesAll content).length content

/-- An element of a list of messages: its frames, the message that they write, and the errors that are met in them. -/
structure Element (α : Type) where
  content : List Frame
  value : α
  errors : List DecodeError

theorem legible_enclose {number : Nat} (h : number < 0x20000000) (content : List Frame) :
    (enclose number content).tag.Legible := ⟨h, fun _ => WireType.noConfusion⟩

/-- The elements join the list one by one, up to the first that is refused. -/
theorem course_elements {number capacity greatest : Nat} {merge : α → Reader → Merged α} {fresh : α}
    {step : Tag → List α → Reader → Merged (List α)}
    (hstep : step ⟨number, .delimited⟩ = append number capacity greatest fresh merge)
    (hnumber : number < 0x20000000) (hgreatest : greatest < 0x100000000)
    {elements : List (Element α)} {old : List α} (hroom : old.length + elements.length ≤ capacity)
    (hsmall : ∀ element ∈ elements, (Frame.bytesAll element.content).length < 0x100000000)
    (h : ∀ element ∈ elements, Merged.Concludes (merge fresh) (Frame.bytesAll element.content)
      element.value element.errors) :
    Course step old (elements.map fun element => enclose number element.content)
      (old ++ elements.map Element.value)
      (elements.flatMap fun element =>
        elementErrors number greatest (Frame.bytesAll element.content).length element.errors) := by
  induction elements generalizing old with
  | nil =>
    simp only [List.map_nil, List.append_nil, List.flatMap_nil]
    exact Chain.nil old
  | cons element elements ih =>
    rw [List.length_cons] at hroom
    rw [List.forall_mem_cons] at hsmall h
    have hfirst : Merged.Settles (step ⟨number, .delimited⟩ old)
        (payload (Frame.bytesAll element.content)) (old ++ [element.value])
        (elementErrors number greatest (Frame.bytesAll element.content).length element.errors) := by
      rw [hstep]
      exact settles_append number hgreatest hsmall.1 (by omega) h.1
    have hmore : (old ++ [element.value]).length + elements.length ≤ capacity := by
      rw [List.length_append, List.length_singleton]
      omega
    have hothers := ih hmore hsmall.2 h.2
    rw [List.append_assoc, List.singleton_append] at hothers
    exact (Course.single (legible_enclose hnumber element.content) hfirst).append hothers

end Delimited

/-! ### Lists of floats -/

namespace Floats

def unpacked (number : Nat) (values : List Single) : List Frame :=
  values.map fun value => .scalar ⟨number, .fixed32⟩ value.encode

theorem takes_mergeUnpacked (number : Nat) {capacity : Nat} {values : List Single}
    (hroom : values.length < capacity) (value : Single) :
    Merged.Takes (mergeUnpacked number capacity values) value.encode (values ++ [value]) := by
  have hmerge : mergeUnpacked number capacity values = fun reader =>
      (Fetched.ofRead Single.read reader).assign values fun value => values ++ [value] :=
    funext fun reader => by rw [mergeUnpacked_eq, if_neg (Nat.not_le.mpr hroom)]
  rw [hmerge]
  exact Merged.takes_assign (Fetched.yields_ofRead (Single.yields_read value)) values _

theorem chain_unpacked {number capacity : Nat}
    {step : Tag → List Single → Reader → Merged (List Single)}
    (hstep : step ⟨number, .fixed32⟩ = mergeUnpacked number capacity)
    (hnumber : number < 0x20000000) {old values : List Single}
    (hroom : old.length + values.length ≤ capacity) :
    Delimited.Chain step old (unpacked number values) (old ++ values) := by
  induction values generalizing old with
  | nil =>
    rw [List.append_nil]
    exact .nil old
  | cons value values ih =>
    rw [List.length_cons] at hroom
    have hmore : (old ++ [value]).length + values.length ≤ capacity := by
      rw [List.length_append, List.length_singleton]
      omega
    have hothers := ih hmore
    rw [List.append_assoc, List.singleton_append] at hothers
    refine .cons ⟨hnumber, fun _ => WireType.noConfusion⟩ ?_ hothers
    show Merged.Takes (step ⟨number, .fixed32⟩ old) value.encode (old ++ [value])
    rw [hstep]
    exact takes_mergeUnpacked number (by omega) value

theorem length_unpacked (number : Nat) (values : List Single) :
    (Frame.bytesAll (unpacked number values)).length =
      values.length * (Tag.size number + Fixed32.size) := by
  induction values with
  | nil => rw [List.length_nil, Nat.zero_mul]; rfl
  | cons value values ih =>
    have htag : (Tag.encode ⟨number, .fixed32⟩).length = Tag.size number :=
      Tag.length_encode (fun _ => WireType.noConfusion)
    have hframe : (Frame.scalar ⟨number, .fixed32⟩ value.encode).bytes.length =
        Tag.size number + Fixed32.size := by
      rw [Frame.bytes, List.length_append, htag, Single.length_encode]
    show ((Frame.scalar ⟨number, .fixed32⟩ value.encode).bytes ++
      Frame.bytesAll (unpacked number values)).length = _
    rw [List.length_append, hframe, ih, List.length_cons, Nat.succ_mul, Nat.add_comm]

end Floats

end EngineConsole
