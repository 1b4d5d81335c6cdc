import EngineConsole.Proofs.Message.Simulation
import EngineConsole.Proofs.Record.Repetition

/-!
# Elements that join a list

A list of messages grows by whole elements. The length in front of an element is judged first: one that no element can have is refused, and so is every other one if the list is full. Only then the element is decoded, apart from the list, and what it is depends on the bytes of its span alone. It joins the list if that succeeds, and otherwise nothing of it does. So after any attempts the list holds what it held before and behind it the elements that succeeded.
-/

namespace EngineConsole

namespace Delimited

/-- The bytes that the length in front of them declares, as far as they are there. -/
def declared (reader : Reader) : Bytes :=
  match Varint.readLength reader with
  | .ok length behind => behind.source.rest.take length
  | .error _ _ => []

theorem declared_of_readLength {reader behind : Reader} {length : Nat}
    (h : Varint.readLength reader = .ok length behind) :
    declared reader = behind.source.rest.take length := by
  rw [declared, h]

variable {α : Type} {merge : α → Reader → Merged α} {number capacity greatest length : Nat}
  {fresh : α} {values : List α} {reader behind : Reader}

theorem append_of_fits (hread : Varint.readLength reader = .ok length behind)
    (hlength : length ≤ greatest) (hroom : values.length < capacity) :
    append number capacity greatest fresh merge values reader =
      (mergeSpan merge length fresh behind).map fun value =>
        if (mergeSpan merge length fresh behind).error.isNone then values ++ [value] else values := by
  simp only [append_eq, hread, if_neg (Nat.not_lt.mpr hlength), if_neg (Nat.not_le.mpr hroom)]

theorem append_cases (h : (append number capacity greatest fresh merge values reader).error = none) :
    ∃ length behind, Varint.readLength reader = .ok length behind ∧ length ≤ greatest ∧
      values.length < capacity ∧ (mergeSpan merge length fresh behind).error = none := by
  rw [append_eq] at h
  split at h
  · cases h
  · rename_i length behind hread
    split at h
    · cases h
    · split at h
      · cases h
      · exact ⟨length, behind, hread, by omega, by omega, h⟩

end Delimited

namespace Format

variable {μ : Type}

/-- What comes of an attempt to append an element to a list of field `number`. -/
structure Attempted (format : Format μ) (number capacity : Nat) (values : List μ) (reader : Reader)
    (merged : Merged (List μ)) : Prop where
  failed : merged.error ≠ none → merged.value = values
  /-- With a source that refuses nothing on its own, a success appends one element, that which the span decodes to alone, and takes the span as a whole. -/
  joined : reader.source.supply.Willing → merged.error = none →
    ∃ length behind element, Varint.readLength reader = .ok length behind ∧
      behind.Advanced length merged.reader ∧
      format.ofBytes? (Delimited.declared reader) = .ok element ∧ merged.value = values ++ [element]
  /-- A length that no element has is refused, also by a full list, and nothing behind it is read. -/
  tooLong : ∀ {length : Nat} {behind : Reader}, Varint.readLength reader = .ok length behind →
    format.maxSize < length →
    merged = { value := values, reader := behind
               notices := [.elementTooLong number length format.maxSize]
               error := some (.lengthExceeded number length format.maxSize) }
  /-- Any other length is refused by a full list, and nothing behind it is read. -/
  full : ∀ {length : Nat} {behind : Reader}, Varint.readLength reader = .ok length behind →
    length ≤ format.maxSize → capacity ≤ values.length →
    merged = { value := values, reader := behind
               notices := [.listFull number capacity]
               error := some (.capacityExceeded number capacity) }
  /-- In every other case the attempt goes as the decoding of the element in its span does. -/
  decoded : ∀ {length : Nat} {behind : Reader}, Varint.readLength reader = .ok length behind →
    length ≤ format.maxSize → values.length < capacity →
    let element := Delimited.mergeSpan format.merge length format.default behind
    merged.error = element.error ∧ merged.notices = element.notices ∧
      merged.reader = element.reader ∧
      merged.value = if element.error.isNone then values ++ [element.value] else values
  /-- If the span is there as a whole, that is to decode its bytes alone. -/
  alone : ∀ {length : Nat} {behind : Reader}, Varint.readLength reader = .ok length behind →
    length ≤ format.maxSize → values.length < capacity → behind.Offers (Delimited.declared reader) →
    (Delimited.declared reader).length = length →
    merged.error = (format.decode (.ofBytes (Delimited.declared reader))).error
  /-- If the span is not there as a whole, the attempt fails. -/
  cut : ∀ {length : Nat} {behind : Reader}, Varint.readLength reader = .ok length behind →
    (behind.unread < length ∨ ∃ left ∈ behind.spans, left < length) → merged.error ≠ none

variable {format : Format μ} {number capacity : Nat} {values : List μ} {reader behind : Reader}
  {length : Nat}

theorem ofBytes?_eq_ok_iff {data : Bytes} {message : μ} :
    format.ofBytes? data = .ok message ↔ (format.decode (.ofBytes data)).error = none ∧
      (format.decode (.ofBytes data)).value = message := by
  rw [ofBytes?]
  cases (format.decode (.ofBytes data)).error with
  | none => simp
  | some error => simp

/-- In a span that is there as a whole, an element is decoded as if its bytes were all there is. -/
theorem alike_element (hoffers : behind.Offers (Delimited.declared reader))
    (hlength : (Delimited.declared reader).length = length) :
    Merged.Alike (fun _ _ => True) TransferError.Same
      (Delimited.mergeSpan format.merge length format.default behind)
      (format.decode (.ofBytes (Delimited.declared reader))) := by
  rw [← hlength]
  exact Delimited.alike_mergeSpan_ofBytes (format.follows_merge .window format.default) hoffers

theorem offers_declared (hread : Varint.readLength reader = .ok length behind)
    (hwilling : reader.source.supply.Willing) {after : Reader} (h : behind.Advanced length after) :
    behind.Offers (Delimited.declared reader) ∧ (Delimited.declared reader).length = length := by
  obtain ⟨count, hbehind⟩ := Varint.readLength_advances.reaches_of_ok hread
  rw [Delimited.declared_of_readLength hread]
  exact ⟨h.delivered.offers (hbehind.supply ▸ hwilling), List.length_take_of_le h.held⟩

theorem attempted_append (format : Format μ) (number capacity : Nat) (values : List μ)
    (reader : Reader) :
    format.Attempted number capacity values reader
      (format.append number capacity values reader) where
  failed := Delimited.value_append_of_error
  joined := by
    intro hwilling hnone
    obtain ⟨length, behind, hread, hlength, hroom, helement⟩ := Delimited.append_cases hnone
    have hadvanced := Delimited.advanced_of_mergeSpan (format.moves_merge format.default) helement
    obtain ⟨hoffers, hdeclared⟩ := offers_declared hread hwilling hadvanced
    have halike := format.alike_element hoffers hdeclared
    refine ⟨length, behind, (format.decode (.ofBytes (Delimited.declared reader))).value, hread,
      ?_, ?_, ?_⟩
    · rw [append, Delimited.append_of_fits hread hlength hroom]
      exact hadvanced
    · exact ofBytes?_eq_ok_iff.mpr ⟨halike.error_eq.symm.trans helement, rfl⟩
    · rw [append, Delimited.append_of_fits hread hlength hroom, Merged.map, helement, halike.value]
      rfl
  tooLong := by
    intro length behind hread hlength
    simp only [append, Delimited.append_eq, hread, if_pos hlength]
  full := by
    intro length behind hread hlength hfull
    simp only [append, Delimited.append_eq, hread, if_neg (Nat.not_lt.mpr hlength), if_pos hfull]
  decoded := by
    intro length behind hread hlength hroom
    rw [append, Delimited.append_of_fits hread hlength hroom]
    exact ⟨rfl, rfl, rfl, rfl⟩
  alone := by
    intro length behind hread hlength hroom hoffers hdeclared
    rw [append, Delimited.append_of_fits hread hlength hroom]
    exact (format.alike_element hoffers hdeclared).error_eq
  cut := by
    intro length behind hread hcut hnone
    obtain ⟨length', behind', hread', _, _, helement⟩ := Delimited.append_cases hnone
    obtain ⟨rfl, rfl⟩ : length' = length ∧ behind' = behind := by
      rw [hread] at hread'
      cases hread'
      exact ⟨rfl, rfl⟩
    have hadvanced := Delimited.advanced_of_mergeSpan (format.moves_merge format.default) helement
    rcases hcut with hshort | ⟨left, hleft, hshort⟩
    · have hheld := hadvanced.held
      omega
    · have hallowed := hadvanced.allowed left hleft
      omega

/-! ### One attempt after the other -/

/-- Attempts to append to one list, each from a reader of its own. After a failure they go on with the list that it left behind. -/
def appendEach (format : Format μ) (number capacity : Nat) :
    List μ → List Reader → List (Merged (List μ))
  | _, [] => []
  | values, reader :: readers =>
    let merged := format.append number capacity values reader
    merged :: format.appendEach number capacity merged.value readers

/-- The elements of the attempts that succeeded, in their order. Each of them is what its span decodes to alone. -/
def elements (format : Format μ) : List Reader → List (Merged (List μ)) → List μ
  | reader :: readers, merged :: outcomes =>
    if merged.error.isNone then
      (format.decode (.ofBytes (Delimited.declared reader))).value :: format.elements readers outcomes
    else format.elements readers outcomes
  | _, _ => []

/-- By induction on the attempts: each of them starts from the elements that the ones before it have left behind. -/
theorem getLastD_appendEach (number capacity : Nat) (values : List μ) {readers : List Reader}
    (hwilling : ∀ reader ∈ readers, reader.source.supply.Willing) :
    ((format.appendEach number capacity values readers).map Merged.value).getLastD values =
      values ++ format.elements readers (format.appendEach number capacity values readers) := by
  induction readers generalizing values with
  | nil => exact (List.append_nil values).symm
  | cons reader readers ih =>
    obtain ⟨hreader, hreaders⟩ := List.forall_mem_cons.mp hwilling
    have hattempt := format.attempted_append number capacity values reader
    rw [appendEach, List.map_cons, List.getLastD_cons, ih _ hreaders, elements]
    by_cases herror : (format.append number capacity values reader).error = none
    · obtain ⟨length, behind, element, _, _, helement, hvalue⟩ := hattempt.joined hreader herror
      obtain ⟨-, hdecoded⟩ := ofBytes?_eq_ok_iff.mp helement
      rw [if_pos (by simpa using herror), hvalue, hdecoded, List.append_assoc, List.singleton_append]
    · rw [if_neg (by simpa using herror), hattempt.failed herror]

end Format

end EngineConsole
