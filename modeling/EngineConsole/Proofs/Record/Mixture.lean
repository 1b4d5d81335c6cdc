import EngineConsole.Proofs.Bytes.View
import EngineConsole.Proofs.Number.Spelling
import EngineConsole.Proofs.Record.Overflow

/-!
# Floats in any mixture of forms

A list of floats is read from packed records and from records of one float each, in any order, and a record that fails leaves the floats before the failure in the list. How many floats of a packed record join the list is told by three numbers alone: the free places, the declared length and the bytes that are there. Together with the list these also tell the failure. So a list of floats that is spread over several records arrives the same however it is spread, up to the capacity.
-/

namespace EngineConsole

/-! ### One float -/

namespace Single

variable {reader after : Reader} {bytes : Bytes} {error : TransferError}

theorem read_of_ok (h : Reader.read Fixed32.size reader = .ok bytes after) :
    read reader = .ok ⟨Fixed32.decode bytes⟩ after := by
  simp only [read, Fixed32.read, bind, EStateM.bind, h, pure, EStateM.pure]

theorem read_of_error (h : Reader.read Fixed32.size reader = .error error after) :
    read reader = .error error after := by
  simp only [read, Fixed32.read, bind, EStateM.bind, h]

theorem encode_decode {bytes : Bytes} (h : bytes.length = 4) :
    (Single.mk (Fixed32.decode bytes)).encode = bytes := Fixed32.encode_decode h

end Single

namespace Floats

theorem take_flatMap_encode (values : List Single) (count : Nat) :
    (values.flatMap Single.encode).take (4 * count) = (values.take count).flatMap Single.encode := by
  induction values generalizing count with
  | nil => simp
  | cons value values ih =>
    cases count with
    | zero => simp
    | succ count =>
      have hlength : 4 * (count + 1) = value.encode.length + 4 * count := by
        rw [Single.length_encode, Fixed32.size]
        omega
      rw [List.flatMap_cons, hlength, List.take_length_add_append, ih, List.take_succ_cons,
        List.flatMap_cons]

theorem flatMap_encode_injective {values others : List Single}
    (h : values.flatMap Single.encode = others.flatMap Single.encode) : values = others := by
  induction values generalizing others with
  | nil =>
    have hlength := length_flatMap_encode others
    rw [← h] at hlength
    rw [Fixed32.size, List.flatMap_nil, List.length_nil] at hlength
    exact (List.eq_nil_of_length_eq_zero (by omega)).symm
  | cons value values ih =>
    cases others with
    | nil => cases h
    | cons other others =>
      rw [List.flatMap_cons, List.flatMap_cons] at h
      obtain ⟨hhead, htail⟩ := List.append_inj h rfl
      rw [Single.encode_injective hhead, ih htail]

/-! ### One packed record -/

/-- The number of floats that join a list with `room` free places from a packed payload: no more than there are places for, than the length declares and than the bytes hold. -/
def joining (room length available : Nat) : Nat := min room (min (length / 4) (available / 4))

/-- What stops the floats of a packed payload, if it is not the end of the span. -/
def obstacle (number capacity room length available : Nat) : Option DecodeError :=
  if 4 * joining room length available = length then none
  else if joining room length available = room then some (.capacityExceeded number capacity)
  else if length - 4 * joining room length available < 4 then
    some (.transfer (.endOfData 4 (length - 4 * joining room length available)))
  else some (.transfer (.endOfData 4 (available - 4 * joining room length available)))

theorem joining_succ {room length available : Nat} (hlength : 4 ≤ length)
    (havailable : 4 ≤ available) :
    joining (room + 1) length available = joining room (length - 4) (available - 4) + 1 := by
  unfold joining
  omega

theorem obstacle_succ (number capacity : Nat) {room length available : Nat} (hlength : 4 ≤ length)
    (havailable : 4 ≤ available) :
    obstacle number capacity (room + 1) length available =
      obstacle number capacity room (length - 4) (available - 4) := by
  have hle : 4 * joining room (length - 4) (available - 4) ≤ length - 4 := by
    unfold joining
    omega
  have hdone : 4 * (joining room (length - 4) (available - 4) + 1) = length ↔
      4 * joining room (length - 4) (available - 4) = length - 4 := by omega
  have hleft : length - 4 * (joining room (length - 4) (available - 4) + 1) =
      length - 4 - 4 * joining room (length - 4) (available - 4) := by omega
  have hrest : available - 4 * (joining room (length - 4) (available - 4) + 1) =
      available - 4 - 4 * joining room (length - 4) (available - 4) := by omega
  simp only [obstacle, joining_succ hlength havailable, hdone, Nat.add_right_cancel_iff, hleft, hrest]

/-- With a free place but too few bytes for a float, none joins, and the failure counts what is left of the span, or else of the data. -/
theorem obstacle_of_few (number capacity : Nat) {room length available : Nat} (hroom : 0 < room)
    (hlength : length ≠ 0) (hfew : length < 4 ∨ available < 4) :
    joining room length available = 0 ∧ obstacle number capacity room length available =
      if length < 4 then some (.transfer (.endOfData 4 length))
      else some (.transfer (.endOfData 4 available)) := by
  have hzero : joining room length available = 0 := by
    unfold joining
    omega
  simp [obstacle, hzero, Ne.symm hlength, Nat.ne_of_lt hroom]

/-- What a merge makes of a list when it meets `left` bytes of a span and `data` in them. -/
structure Joins (number capacity : Nat) (values : List Single) (left : Nat) (data : Bytes)
    (reader : Reader) (merged : Merged (List Single)) : Prop where
  value : ∃ floats, merged.value = values ++ floats ∧
    floats.length = joining (capacity - values.length) left data.length ∧
    floats.flatMap Single.encode =
      data.take (4 * joining (capacity - values.length) left data.length)
  reader : reader.Advanced (4 * joining (capacity - values.length) left data.length) merged.reader
  error : merged.error = obstacle number capacity (capacity - values.length) left data.length

section

variable {number capacity left : Nat} {values : List Single} {data : Bytes} {reader after : Reader}
  {notices : List Notice}

theorem joins_nothing {error : Option DecodeError}
    (hzero : joining (capacity - values.length) left data.length = 0)
    (hadvanced : reader.Advanced 0 after)
    (herror : error = obstacle number capacity (capacity - values.length) left data.length) :
    Joins number capacity values left data reader { value := values, reader := after, notices, error } where
  value := ⟨[], by simp [hzero]⟩
  reader := by rwa [hzero]
  error := herror

theorem Joins.cons {value : Single} {merged : Merged (List Single)}
    (h : Joins number capacity (values ++ [value]) (left - 4) (data.drop 4) after merged)
    (hencode : value.encode = data.take 4) (hroom : values.length < capacity) (hleft : 4 ≤ left)
    (hdata : 4 ≤ data.length) (hadvanced : reader.Advanced 4 after) :
    Joins number capacity values left data reader merged := by
  obtain ⟨⟨floats, hvalue, hcount, hfloats⟩, hreader, herror⟩ := h
  rw [List.length_append, List.length_singleton, List.length_drop] at hcount hfloats hreader herror
  obtain ⟨room, hroom⟩ : ∃ room, capacity - values.length = room + 1 :=
    ⟨capacity - values.length - 1, by omega⟩
  have hroom' : capacity - (values.length + 1) = room := by omega
  rw [hroom'] at hcount hfloats hreader herror
  have hsplit : data.take (4 * (joining room (left - 4) (data.length - 4) + 1)) =
      data.take 4 ++ (data.drop 4).take (4 * joining room (left - 4) (data.length - 4)) := by
    rw [Nat.mul_succ, Nat.add_comm, List.take_add]
  constructor
  case value =>
    refine ⟨value :: floats, ?_, ?_, ?_⟩
    · rw [hvalue, List.append_assoc, List.singleton_append]
    · rw [hroom, joining_succ hleft hdata, List.length_cons, hcount]
    · rw [hroom, joining_succ hleft hdata, hsplit, List.flatMap_cons, hencode, hfloats]
  case reader =>
    rw [hroom, joining_succ hleft hdata, Nat.mul_succ, Nat.add_comm]
    exact hadvanced.trans hreader
  case error => rw [hroom, obstacle_succ number capacity hleft hdata, herror]

/-- By induction on the floats: each of them takes a place in the list and four bytes of the span and of the data. -/
theorem joins_fill {fuel : Nat} (number : Nat) (hview : Reader.View [left] data reader)
    (hfuel : left ≤ fuel) :
    Joins number capacity values left data reader (fill number capacity fuel values reader) := by
  induction fuel generalizing left values data reader with
  | zero =>
    obtain rfl : left = 0 := by omega
    apply joins_nothing _ (.refl reader)
    · simp [obstacle, joining]
    · simp [joining]
  | succ fuel ih =>
    have hspan : reader.spanLeft = left := by
      obtain ⟨outer, hspans, _⟩ := hview
      rw [Reader.spanLeft, hspans]
      rfl
    rw [fill, hspan]
    by_cases hend : left = 0
    · rw [if_pos hend, hend]
      apply joins_nothing _ (.refl reader)
      · simp [obstacle, joining]
      · simp [joining]
    rw [if_neg hend, mergeUnpacked_eq]
    by_cases hfull : capacity ≤ values.length
    · -- the place is asked for before the float
      have hroom : capacity - values.length = 0 := by omega
      rw [if_pos hfull, Merged.andThen_of_error rfl]
      apply joins_nothing _ (.refl reader)
      · simp [obstacle, joining, hroom, Ne.symm hend]
      · simp [joining, hroom]
    rw [if_neg hfull, Fetched.ofRead]
    by_cases hshort : left < 4
    · have hread : Reader.read Fixed32.size reader = .error (.endOfData 4 left) reader :=
        hview.read_of_short (by simp [Fixed32.size, hshort])
      rw [Single.read_of_error hread]
      obtain ⟨hzero, herror⟩ :=
        obstacle_of_few number capacity (show 0 < capacity - values.length by omega) hend (.inl hshort)
      rw [if_pos hshort] at herror
      exact joins_nothing hzero (.refl reader) herror.symm
    by_cases hmissing : data.length < 4
    · obtain ⟨after, hread, _⟩ := hview.read_beyond (by simp [hshort]) hmissing
      rw [Single.read_of_error hread]
      obtain ⟨hzero, herror⟩ :=
        obstacle_of_few number capacity (show 0 < capacity - values.length by omega) hend (.inr hmissing)
      rw [if_neg hshort] at herror
      exact joins_nothing hzero (Reader.advanced_of_refused hread) herror.symm
    · obtain ⟨after, hread, hafter⟩ := hview.read_served 4 (by simp; omega) (by omega)
      rw [Single.read_of_ok hread]
      have hinside : Reader.View [left - 4] (data.drop 4) after := hafter
      have hothers : Joins number capacity (values ++ [⟨Fixed32.decode (data.take 4)⟩]) (left - 4)
          (data.drop 4) after _ := ih hinside (by omega)
      have htake : (data.take 4).length = 4 := List.length_take_of_le (by omega)
      exact hothers.cons (Single.encode_decode htake) (by omega) (by omega) (by omega)
        (Reader.advanced_of_read hread).2

end

theorem obstacle_eq_none_iff (number capacity : Nat) {room length available : Nat} :
    obstacle number capacity room length available = none ↔
      4 ∣ length ∧ length ≤ available ∧ length / 4 ≤ room := by
  have hdone : 4 * joining room length available = length ↔
      4 ∣ length ∧ length ≤ available ∧ length / 4 ≤ room := by
    unfold joining
    omega
  rw [← hdone]
  unfold obstacle
  by_cases h : 4 * joining room length available = length
  · simp [h]
  · simp only [h, if_false, iff_false]
    split
    · simp
    · split <;> simp

theorem obstacle_eq_capacityExceeded_iff {number capacity room length available : Nat} :
    obstacle number capacity room length available = some (.capacityExceeded number capacity) ↔
      joining room length available = room ∧ 4 * joining room length available < length := by
  have hle : 4 * joining room length available ≤ length := by
    unfold joining
    omega
  unfold obstacle
  by_cases hdone : 4 * joining room length available = length
  · simp [hdone]
  by_cases hfull : joining room length available = room
  · rw [if_neg hdone, if_pos hfull]
    simp only [hfull, true_and, true_iff]
    omega
  · rw [if_neg hdone, if_neg hfull]
    split <;> simp [hfull]

theorem obstacle_eq_some {number capacity room length available : Nat} {error : DecodeError}
    (h : obstacle number capacity room length available = some error) :
    error = .capacityExceeded number capacity ∨ ∃ left, error = .transfer (.endOfData 4 left) := by
  unfold obstacle at h
  split at h
  · cases h
  split at h
  · cases h
    exact .inl rfl
  split at h
  all_goals
    cases h
    exact .inr ⟨_, rfl⟩

/-- What a packed record of `length` bytes makes of a list: `floats` join it from what is behind the length. -/
structure Packs (number capacity : Nat) (values : List Single) (length : Nat) (behind : Reader)
    (floats : List Single) (merged : Merged (List Single)) : Prop where
  value : merged.value = values ++ floats
  count : floats.length = joining (capacity - values.length) length behind.unread
  bytes : floats.flatMap Single.encode = behind.source.rest.take (4 * floats.length)
  reader : behind.Advanced (4 * floats.length) merged.reader
  succeeds : merged.error = none ↔
    4 ∣ length ∧ length ≤ behind.unread ∧ length / 4 ≤ capacity - values.length
  full : merged.error = some (.capacityExceeded number capacity) ↔
    merged.value.length = capacity ∧ 4 * floats.length < length
  fails : ∀ error, merged.error = some error →
    error = .capacityExceeded number capacity ∨ ∃ left, error = .transfer (.endOfData 4 left)

structure Pushes (number capacity : Nat) (values : List Single) (data : Bytes)
    (merged : Merged (List Single)) : Prop where
  succeeds : merged.error = none ↔ values.length < capacity ∧ 4 ≤ data.length
  joins : merged.error = none → ∃ value : Single, merged.value = values ++ [value] ∧
    value.encode = data.take 4 ∧ (Reader.ofBytes data).Advanced 4 merged.reader
  full : values.length = capacity → merged.value = values ∧ merged.reader = .ofBytes data ∧
    merged.error = some (.capacityExceeded number capacity)
  short : values.length < capacity → data.length < 4 → merged.value = values ∧
    (Reader.ofBytes data).Advanced 0 merged.reader ∧
    merged.error = some (.transfer (.endOfData 4 data.length))

section

variable {number capacity length : Nat} {values : List Single} {data : Bytes} {behind : Reader}

theorem packs_mergePacked (number : Nat) (hvalues : values.length ≤ capacity)
    (hlength : Varint.readLength (.ofBytes data) = .ok length behind) :
    ∃ floats, Packs number capacity values length behind floats
      (mergePacked number capacity values (.ofBytes data)) := by
  obtain ⟨count, hadvanced⟩ := Varint.readLength_advances.reaches_of_ok hlength
  have hrest : behind.source.rest = data.drop count := hadvanced.rest
  have hview : Reader.View [] (data.drop count) behind :=
    (Reader.view_ofBytes data).advance hadvanced.held hadvanced
  rw [← hrest] at hview
  have hjoins : Joins number capacity values length behind.source.rest (behind.enter length)
      (fill number capacity length values (behind.enter length)) :=
    joins_fill number (hview.enter length) (Nat.le_refl length)
  obtain ⟨⟨floats, hvalue, hcount, hfloats⟩, hreader, herror⟩ := hjoins
  have hunread : behind.source.rest.length = behind.unread := rfl
  rw [hunread] at hcount herror
  rw [hunread, ← hcount] at hfloats hreader
  rw [mergePacked, hlength]
  refine ⟨floats, hvalue, hcount, hfloats, hreader.leave, ?succeeds, ?full, ?fails⟩
  case succeeds =>
    rw [← obstacle_eq_none_iff number capacity, ← herror]
    rfl
  case full =>
    have hfull : floats.length = capacity - values.length ↔
        (values ++ floats).length = capacity := by
      rw [List.length_append]
      omega
    show (fill _ _ _ _ _).error = _ ↔ (fill _ _ _ _ _).value.length = _ ∧ _
    rw [herror, obstacle_eq_capacityExceeded_iff, ← hcount, hfull, hvalue]
  case fails =>
    intro error hsome
    exact obstacle_eq_some (herror.symm.trans hsome)

theorem pushes_mergeUnpacked (number : Nat) (hvalues : values.length ≤ capacity) (data : Bytes) :
    Pushes number capacity values data (mergeUnpacked number capacity values (.ofBytes data)) := by
  have hview := Reader.view_ofBytes data
  by_cases hfull : capacity ≤ values.length
  · rw [mergeUnpacked_eq, if_pos hfull]
    constructor
    case succeeds => simp; omega
    case joins => intro h; cases h
    case full => exact fun _ => ⟨rfl, rfl, rfl⟩
    case short => omega
  by_cases hshort : data.length < 4
  · obtain ⟨after, hread, _⟩ := hview.read_beyond rfl hshort
    rw [mergeUnpacked_eq, if_neg hfull, Fetched.ofRead, Single.read_of_error hread]
    constructor
    case succeeds => simp [Fetched.assign]; omega
    case joins => intro h; cases h
    case full => omega
    case short => exact fun _ _ => ⟨rfl, Reader.advanced_of_refused hread, rfl⟩
  · obtain ⟨after, hread, _⟩ := hview.read_served 4 (List.forall_mem_nil _) (by omega)
    have htake : (data.take 4).length = 4 := List.length_take_of_le (by omega)
    rw [mergeUnpacked_eq, if_neg hfull, Fetched.ofRead, Single.read_of_ok hread]
    constructor
    case succeeds => simp [Fetched.assign]; omega
    case joins => exact fun _ => ⟨_, rfl, Single.encode_decode htake, (Reader.advanced_of_read hread).2⟩
    case full => omega
    case short => omega

end

/-! ### Records in any mixture -/

/-- A record of a list of floats, by the bytes from which what is behind its tag is read. -/
inductive Occurrence where
  | packed (data : Bytes)
  | unpacked (data : Bytes)

def mergeOccurrence (number capacity : Nat) (values : List Single) :
    Occurrence → Merged (List Single)
  | .packed data => mergePacked number capacity values (.ofBytes data)
  | .unpacked data => mergeUnpacked number capacity values (.ofBytes data)

def mergeEach (number capacity : Nat) (values : List Single) (occurrences : List Occurrence) :
    List Single :=
  occurrences.foldl (fun values occurrence => (mergeOccurrence number capacity values occurrence).value)
    values

/-- The record has just these floats in its payload. Other bytes may be behind it. -/
def Occurrence.Carries (floats : List Single) : Occurrence → Prop
  | .packed data => ∃ behind, Varint.readLength (.ofBytes data) = .ok (4 * floats.length) behind ∧
      floats.flatMap Single.encode <+: behind.source.rest
  | .unpacked data => ∃ value : Single, floats = [value] ∧ value.encode <+: data

inductive Spread : List Single → List Occurrence → Prop where
  | nil : Spread [] []
  | cons {floats others : List Single} {occurrence : Occurrence} {occurrences : List Occurrence} :
    occurrence.Carries floats → Spread others occurrences →
      Spread (floats ++ others) (occurrence :: occurrences)

/-- What is known of the list that `values` has become behind some records, and of every record that comes next. -/
structure Mixture (number capacity : Nat) (values reached : List Single) : Prop where
  grows : values <+: reached
  bounded : reached.length ≤ capacity
  /-- Without its length a packed record leaves the list as it is. -/
  unreadable : ∀ data error after, Varint.readLength (.ofBytes data) = .error error after →
    (mergePacked number capacity reached (.ofBytes data)).value = reached ∧
      (mergePacked number capacity reached (.ofBytes data)).error = some (.transfer error)
  packed : ∀ data length behind, Varint.readLength (.ofBytes data) = .ok length behind →
    ∃ floats, Packs number capacity reached length behind floats
      (mergePacked number capacity reached (.ofBytes data))
  unpacked : ∀ data, Pushes number capacity reached data
    (mergeUnpacked number capacity reached (.ofBytes data))
  spread : ∀ floats occurrences, Spread floats occurrences →
    mergeEach number capacity reached occurrences = (reached ++ floats).take capacity
  alike : ∀ floats occurrences others, Spread floats occurrences → Spread floats others →
    mergeEach number capacity reached occurrences = mergeEach number capacity reached others

section

variable {number capacity : Nat} {values floats : List Single} {occurrences : List Occurrence}

theorem grows_mergeOccurrence (number : Nat) (hvalues : values.length ≤ capacity)
    (occurrence : Occurrence) :
    values <+: (mergeOccurrence number capacity values occurrence).value ∧
      (mergeOccurrence number capacity values occurrence).value.length ≤ capacity := by
  cases occurrence with
  | packed data =>
    rw [mergeOccurrence]
    cases hlength : Varint.readLength (.ofBytes data) with
    | error error after =>
      rw [mergePacked, hlength]
      exact ⟨List.prefix_refl values, hvalues⟩
    | ok length behind =>
      obtain ⟨floats, h⟩ := packs_mergePacked number hvalues hlength
      have hcount := h.count
      rw [h.value, List.length_append]
      refine ⟨List.prefix_append values floats, ?_⟩
      unfold joining at hcount
      omega
  | unpacked data =>
    rw [mergeOccurrence]
    have h := pushes_mergeUnpacked number hvalues data
    by_cases hfull : values.length = capacity
    · rw [(h.full hfull).1]
      exact ⟨List.prefix_refl values, hvalues⟩
    by_cases hshort : data.length < 4
    · rw [(h.short (by omega) hshort).1]
      exact ⟨List.prefix_refl values, hvalues⟩
    · obtain ⟨value, hvalue, _⟩ := h.joins (h.succeeds.mpr (by omega))
      rw [hvalue, List.length_append, List.length_singleton]
      exact ⟨List.prefix_append values [value], by omega⟩

/-- By induction on the records, each of which finds the list within its capacity. -/
theorem grows_mergeEach (number : Nat) (hvalues : values.length ≤ capacity)
    (occurrences : List Occurrence) :
    values <+: mergeEach number capacity values occurrences ∧
      (mergeEach number capacity values occurrences).length ≤ capacity := by
  induction occurrences generalizing values with
  | nil => exact ⟨List.prefix_refl values, hvalues⟩
  | cons occurrence occurrences ih =>
    obtain ⟨hfirst, hbounded⟩ := grows_mergeOccurrence number hvalues occurrence
    obtain ⟨hothers, hcapacity⟩ := ih hbounded
    exact ⟨hfirst.trans hothers, hcapacity⟩

theorem Occurrence.Carries.merge (number : Nat) {occurrence : Occurrence}
    (h : occurrence.Carries floats) (hvalues : values.length ≤ capacity) :
    (mergeOccurrence number capacity values occurrence).value = (values ++ floats).take capacity := by
  rw [List.take_append, List.take_of_length_le hvalues]
  cases occurrence with
  | packed data =>
    obtain ⟨behind, hlength, more, hrest⟩ := h
    obtain ⟨joined, hpacks⟩ := packs_mergePacked number hvalues hlength
    have hpayload : (floats.flatMap Single.encode).length = 4 * floats.length := by
      rw [length_flatMap_encode, Fixed32.size, Nat.mul_comm]
    have hunread : 4 * floats.length ≤ behind.unread := by
      rw [Reader.unread, ← hrest, List.length_append, hpayload]
      exact Nat.le_add_right _ _
    have hcount : joined.length = min (capacity - values.length) floats.length := by
      rw [hpacks.count, joining]
      omega
    have hbytes : joined.flatMap Single.encode = (floats.take joined.length).flatMap Single.encode := by
      rw [hpacks.bytes, ← take_flatMap_encode, ← hrest]
      exact List.take_append_of_le_length (by omega)
    rw [mergeOccurrence, hpacks.value, flatMap_encode_injective hbytes, hcount,
      ← List.take_eq_take_min]
  | unpacked data =>
    obtain ⟨value, rfl, hdata⟩ := h
    have h := pushes_mergeUnpacked number hvalues data
    have hlength : value.encode.length = 4 := Single.length_encode value
    by_cases hfull : values.length = capacity
    · rw [mergeOccurrence, (h.full hfull).1, hfull, Nat.sub_self, List.take_zero, List.append_nil]
    obtain ⟨other, hvalue, hother, _⟩ := h.joins (h.succeeds.mpr ⟨by omega, hlength ▸ hdata.length_le⟩)
    have hsame : value.encode = data.take 4 := hlength ▸ List.prefix_iff_eq_take.mp hdata
    have hroom : [value].length ≤ capacity - values.length := by
      rw [List.length_singleton]
      omega
    rw [mergeOccurrence, hvalue, Single.encode_injective (hother.trans hsame.symm),
      List.take_of_length_le hroom]

/-- By induction on the records: what they carry joins until the list is full. -/
theorem Spread.mergeEach_eq (number : Nat) (h : Spread floats occurrences)
    (hvalues : values.length ≤ capacity) :
    mergeEach number capacity values occurrences = (values ++ floats).take capacity := by
  induction h generalizing values with
  | nil => rw [mergeEach, List.foldl_nil, List.append_nil, List.take_of_length_le hvalues]
  | @cons floats others occurrence occurrences hfirst _ ih =>
    have hroom : capacity - ((values ++ floats).take capacity).length =
        capacity - (values ++ floats).length := by
      rw [List.length_take]
      omega
    have htwice : ((values ++ floats).take capacity).take capacity =
        (values ++ floats).take capacity := by rw [List.take_take, Nat.min_self]
    calc mergeEach number capacity values (occurrence :: occurrences)
        = mergeEach number capacity ((values ++ floats).take capacity) occurrences := by
          rw [mergeEach, List.foldl_cons, hfirst.merge number hvalues, mergeEach]
      _ = ((values ++ floats).take capacity ++ others).take capacity :=
          ih (List.length_take_le _ _)
      _ = (values ++ floats).take capacity ++
            others.take (capacity - (values ++ floats).length) := by
          rw [List.take_append, htwice, hroom]
      _ = (values ++ floats ++ others).take capacity := List.take_append.symm
      _ = (values ++ (floats ++ others)).take capacity := by rw [List.append_assoc]

/-- Any mixture of records, failing ones among them, leaves a list of which all is known. -/
theorem mixture_mergeEach (number : Nat) (hvalues : values.length ≤ capacity)
    (occurrences : List Occurrence) :
    Mixture number capacity values (mergeEach number capacity values occurrences) := by
  obtain ⟨hgrows, hbounded⟩ := grows_mergeEach number hvalues occurrences
  constructor
  case grows => exact hgrows
  case bounded => exact hbounded
  case unreadable =>
    intro data error after hlength
    rw [mergePacked, hlength]
    exact ⟨rfl, rfl⟩
  case packed => exact fun data length behind => packs_mergePacked number hbounded
  case unpacked => exact pushes_mergeUnpacked number hbounded
  case spread => exact fun floats occurrences h => h.mergeEach_eq number hbounded
  case alike =>
    intro floats occurrences others h hothers
    rw [h.mergeEach_eq number hbounded, hothers.mergeEach_eq number hbounded]

end

/-- A packed record whose length is no multiple of four, one float that breaks off and one that is whole. -/
theorem mixture_mergeEach_broken :
    [Single.zero].length ≤ 3 ∧
      mergeEach 1 3 [Single.zero]
          [.packed [6, 1, 2, 3, 4, 5, 6], .unpacked [7, 8], .unpacked [7, 8, 9, 10, 11]] =
        [Single.zero, ⟨0x04030201⟩, ⟨0x0a090807⟩] ∧
      Mixture 1 3 [Single.zero] (mergeEach 1 3 [Single.zero]
        [.packed [6, 1, 2, 3, 4, 5, 6], .unpacked [7, 8], .unpacked [7, 8, 9, 10, 11]]) :=
  ⟨by decide, by rfl, mixture_mergeEach 1 (by decide) _⟩

end Floats

end EngineConsole
