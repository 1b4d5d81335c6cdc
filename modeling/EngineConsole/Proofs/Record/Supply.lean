import EngineConsole.Proofs.Record.Refusal
import EngineConsole.Proofs.Record.Simulation

/-!
# Memory or a callback

A callback that refuses no request but those for more than it has left delivers the same bytes as memory, and only the failure that goes with a refusal is another one. So a reader over memory and a reader over such a callback move in step, whatever is read. A failure that a span gives is the same for both; where the memory itself fails, the other reader has the one failure that a callback can give. Which of the two has failed can be told from the requests that reached the memory, since a span never refuses in the same words as the memory has just done.
-/

namespace EngineConsole

/-! ### The last answer of a source -/

namespace Source

/-- The failure with which a source over `data` in memory refused the last of its requests, if it did. -/
def lastRefusal (data : Bytes) (source : Source) : Option TransferError :=
  match source.requests with
  | [] => none
  | count :: earlier => ((ofBytes data).askAll earlier.reverse).refusal count

/-- The source with its bytes behind a callback, which refuses no request but those for more than is left. -/
def throughCallback (source : Source) : Source :=
  { source with supply := .callback fun _ => false }

variable {data : Bytes}

theorem lastRefusal_ask (counts : List Nat) (count : Nat) :
    (((ofBytes data).askAll counts).ask count).lastRefusal data =
      ((ofBytes data).askAll counts).refusal count := by
  rw [lastRefusal, requests_ask]
  show ((ofBytes data).askAll ((ofBytes data).askAll counts).requests.reverse).refusal count = _
  rw [requests_askAll, ofBytes, List.append_nil, List.reverse_reverse]

theorem lastRefusal_askAll {first counts : List Nat} {depth : Nat} (hcounts : counts ≠ [])
    (h : ((ofBytes data).askAll first).Heeded [] depth counts fun _ => False) :
    (((ofBytes data).askAll first).askAll counts).lastRefusal data = none := by
  obtain ⟨earlier, count, rfl⟩ : ∃ earlier count, counts = earlier ++ [count] :=
    ⟨_, _, (List.dropLast_concat_getLast hcounts).symm⟩
  rw [askAll_concat, ← askAll_append, lastRefusal_ask, askAll_append]
  cases hrefusal : (((ofBytes data).askAll first).askAll earlier).refusal count with
  | none => rfl
  | some failure =>
    rcases h earlier count [] failure rfl hrefusal with ⟨-, hfailed⟩ | ⟨head, hhead, -⟩
    · exact hfailed.elim
    · contradiction

variable {source : Source} {count : Nat}

theorem read_of_served (h : source.refusal count = none) :
    read count source = .ok (source.rest.take count) (source.ask count) := by
  rw [ask, read, h]

theorem read_of_refused {failure : TransferError} (h : source.refusal count = some failure) :
    read count source = .error failure (source.ask count) := by
  rw [ask, read, h]

theorem refusal_memory (h : source.supply = .memory) : source.refusal count =
    if source.holds count then none else some (.endOfData count source.rest.length) := by
  rw [refusal, h]

theorem refusal_throughCallback : source.throughCallback.refusal count =
    if source.holds count then none else some .sourceFailed := by
  show (if (false || !source.holds count) = true then some TransferError.sourceFailed else none) = _
  cases source.holds count with
  | false => rfl
  | true => rfl

theorem exists_of_lastRefusal {failure : TransferError} (source : Source)
    (h : source.lastRefusal data = some failure) :
    ∃ count available, failure = .endOfData count available := by
  rw [lastRefusal] at h
  cases hrequests : source.requests with
  | nil =>
    rw [hrequests] at h
    contradiction
  | cons count earlier =>
    rw [hrequests] at h
    simp only [refusal_memory (supply_askAll (ofBytes data) earlier.reverse)] at h
    by_cases hholds : ((ofBytes data).askAll earlier.reverse).holds count
    · rw [if_pos hholds] at h
      contradiction
    · rw [if_neg hholds] at h
      exact ⟨_, _, (Option.some.inj h).symm⟩

theorem ask_throughCallback (h : source.supply = .memory) :
    source.throughCallback.ask count = (source.ask count).throughCallback := by
  unfold ask read
  rw [refusal_throughCallback, refusal_memory h]
  by_cases hholds : source.holds count
  · rw [if_pos hholds, if_pos hholds]
    rfl
  · rw [if_neg hholds, if_neg hholds]
    rfl

end Source

/-! ### Failures -/

/-- What a failure becomes if the source is a callback instead, where `refused` is the last refusal of the memory. -/
def TransferError.throughCallback (refused : Option TransferError) (failure : TransferError) :
    TransferError :=
  if refused = some failure then .sourceFailed else failure

def DecodeError.throughCallback (refused : Option TransferError) : DecodeError → DecodeError
  | .transfer failure => .transfer (failure.throughCallback refused)
  | error => error

/-- How the failures on both sides belong together, where `source` is the one in memory. -/
def TransferError.Corresponds (data : Bytes) (source : Source) (failure failure' : TransferError) :
    Prop :=
  failure' = failure.throughCallback (source.lastRefusal data)

theorem DecodeError.throughCallback_of_cause_eq_none {error : DecodeError}
    (h : error.cause = none) (refused : Option TransferError) :
    error.throughCallback refused = error := by
  cases error with
  | transfer failure => contradiction
  | capacityExceeded number capacity => rfl
  | lengthExceeded number length greatest => rfl
  | unknownVariant number value => rfl
  | invalidText number => rfl

/-! ### Readers in step -/

namespace Reader

def throughCallback (reader : Reader) : Reader :=
  { reader with source := reader.source.throughCallback }

/-- The reader has asked for bytes of `data` in memory, and the other one stands where it does. A request that has just been refused had room in each of the spans that are open. -/
structure InStep (data : Bytes) (reader other : Reader) : Prop where
  other : other = reader.throughCallback
  asked : ∃ counts, reader.source = (Source.ofBytes data).askAll counts
  room : ∀ count available, reader.source.lastRefusal data = some (.endOfData count available) →
    ∀ left ∈ reader.spans, count ≤ left

variable {data : Bytes} {reader other : Reader}

theorem inStep_ofBytes (data : Bytes) :
    InStep data (ofBytes data) { source := .ofCallback data fun _ => false } where
  other := rfl
  asked := ⟨[], rfl⟩
  room := fun _ _ h => nomatch h

theorem InStep.memory (h : InStep data reader other) : reader.source.supply = .memory := by
  obtain ⟨counts, hsource⟩ := h.asked
  rw [hsource, Source.supply_askAll]
  rfl

theorem InStep.lastRefusal_ask (h : InStep data reader other) (count : Nat) :
    (reader.source.ask count).lastRefusal data = reader.source.refusal count := by
  obtain ⟨counts, hsource⟩ := h.asked
  rw [hsource, Source.lastRefusal_ask]

/-- Two readers in step ask their sources for the same. If these refuse, the open spans must have had the room. -/
theorem InStep.ask (h : InStep data reader other) {count : Nat} {spans : List Nat}
    (hroom : reader.source.holds count = false → ∀ left ∈ spans, count ≤ left) :
    InStep data { source := reader.source.ask count, spans }
      { source := reader.source.throughCallback.ask count, spans } where
  other := by rw [Source.ask_throughCallback h.memory, throughCallback]
  asked := by
    obtain ⟨counts, hsource⟩ := h.asked
    exact ⟨counts ++ [count], by rw [hsource, Source.askAll_concat]⟩
  room := by
    intro asked available hrefused
    rw [h.lastRefusal_ask, Source.refusal_memory h.memory] at hrefused
    cases hholds : reader.source.holds count with
    | true =>
      rw [hholds] at hrefused
      contradiction
    | false =>
      rw [hholds] at hrefused
      obtain ⟨rfl, -⟩ := TransferError.endOfData.inj (Option.some.inj hrefused)
      exact hroom hholds

theorem InStep.read (h : InStep data reader other) (count : Nat) :
    Read.Alike (InStep data) (TransferError.Corresponds data) (read count reader)
      (read count other) := by
  obtain rfl := h.other
  unfold Reader.read
  rw [throughCallback]
  cases hspan : reader.spans.find? (· < count) with
  | some left =>
    have hshort : left < count := by simpa using List.find?_some hspan
    have hother : reader.source.lastRefusal data ≠ some (.endOfData count left) := by
      intro hrefused
      have hroom := h.room count left hrefused left (List.mem_of_find?_eq_some hspan)
      omega
    exact .error (if_neg hother).symm h
  | none =>
    cases hholds : reader.source.holds count with
    | true =>
      have hserved : reader.source.refusal count = none := by
        rw [Source.refusal_memory h.memory, hholds, if_pos rfl]
      have hserved' : reader.source.throughCallback.refusal count = none := by
        rw [Source.refusal_throughCallback, hholds, if_pos rfl]
      rw [Source.read_of_served hserved, Source.read_of_served hserved']
      refine .ok (h.ask fun hlacks => ?_)
      rw [hholds] at hlacks
      contradiction
    | false =>
      have hrefused : reader.source.refusal count =
          some (.endOfData count reader.source.rest.length) := by
        rw [Source.refusal_memory h.memory, hholds, if_neg Bool.false_ne_true]
      have hrefused' : reader.source.throughCallback.refusal count = some .sourceFailed := by
        rw [Source.refusal_throughCallback, hholds, if_neg Bool.false_ne_true]
      have hlast : (reader.source.ask count).lastRefusal data =
          some (.endOfData count reader.source.rest.length) := by
        rw [h.lastRefusal_ask, hrefused]
      rw [Source.read_of_refused hrefused, Source.read_of_refused hrefused']
      refine .error (if_pos hlast).symm (h.ask fun _ left hleft => ?_)
      simpa using List.find?_eq_none.mp hspan left hleft

/-- Behind a length, a request has just been served, so it does not matter how short the span is. -/
theorem InStep.enter {before before' : Reader} {length : Nat} (hbefore : InStep data before before')
    (hlength : Varint.readLength before = .ok length reader) (h : InStep data reader other) :
    InStep data (reader.enter length) (other.enter length) where
  other := by rw [h.other]; rfl
  asked := h.asked
  room := by
    obtain ⟨first, hfirst⟩ := hbefore.asked
    have hheeds : Reader.Heeds [] 0 before reader fun _ => False :=
      Varint.readLength_heeds.of_ok hlength
    obtain ⟨counts, hsource, hheeded⟩ := hheeds
    have hcounts : counts ≠ [] := by
      rintro rfl
      have hconsumed := Varint.readLength_consumes hlength
      rw [Reader.unread, Reader.unread, hsource] at hconsumed
      exact Nat.lt_irrefl _ hconsumed
    rw [hfirst] at hsource hheeded
    intro count available hrefused
    have hserved : reader.source.lastRefusal data = none := by
      rw [hsource, Source.lastRefusal_askAll hcounts hheeded]
    cases hserved.symm.trans hrefused

theorem InStep.leave (h : InStep data reader other) : InStep data reader.leave other.leave where
  other := by rw [h.other]; rfl
  asked := h.asked
  room := fun count available hrefused left hleft =>
    h.room count available hrefused left (List.mem_of_mem_tail hleft)

end Reader

theorem Reader.Simulation.inStep (data : Bytes) :
    Simulation (fun _ => InStep data) (TransferError.Corresponds data) where
  read h count := h.read count
  enter hbefore hlength _ h := hbefore.enter hlength h
  leave h := h.leave
  spanLeft h := by rw [h.other]; rfl
  overlong source := by
    have hother : source.lastRefusal data ≠ some .overlongVarint := by
      intro hrefused
      obtain ⟨count, available, hfailure⟩ := source.exists_of_lastRefusal hrefused
      contradiction
    exact (if_neg hother).symm

theorem Merged.Alike.error_throughCallback {α : Type} {Q : Reader → Reader → Prop} {data : Bytes}
    {first second : Merged α} (h : Alike Q (TransferError.Corresponds data) first second) :
    second.error = first.error.map
      (DecodeError.throughCallback (first.reader.source.lastRefusal data)) := by
  have herror := h.error
  generalize first.error = error at herror ⊢
  generalize second.error = error' at herror ⊢
  cases herror with
  | none => rfl
  | some herrors =>
    cases herrors with
    | transfer hfailures => rw [hfailures, Option.map_some, DecodeError.throughCallback]
    | same error hcause =>
      rw [Option.map_some, DecodeError.throughCallback_of_cause_eq_none hcause]

end EngineConsole
