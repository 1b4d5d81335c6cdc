import EngineConsole.Proofs.Record.Utf8
import EngineConsole.Record.Text

/-!
# Which texts are accepted

A text field takes what its format says and nothing else: a length that can be read and is not beyond the capacity, as many bytes as that, and these well formed. What is missing is looked for in this order, and how far the reader has moved then depends on what it was: nothing is taken behind a length that is too large, nothing of a payload that is not there, and all of one that is no text.
-/

namespace EngineConsole

/-! ### Requests that are served -/

namespace Reader

variable {reader : Reader} {count : Nat}

/-- A request for `count` bytes is served: every open span has room for it, the source has the bytes left, and a callback does not refuse the call. -/
structure Serves (reader : Reader) (count : Nat) : Prop where
  allowed : ∀ left ∈ reader.spans, count ≤ left
  held : count ≤ reader.unread
  granted : ∀ refuses, reader.source.supply = .callback refuses →
    refuses reader.source.requests.length = false

theorem Serves.refusal_eq_none (h : reader.Serves count) : reader.source.refusal count = none := by
  have hholds : reader.source.holds count = true := (reader.source.holds_iff count).mpr h.held
  cases hsupply : reader.source.supply with
  | memory => simp [Source.refusal, hsupply, hholds]
  | callback refuses => simp [Source.refusal, hsupply, hholds, h.granted refuses hsupply]

theorem Serves.read (h : reader.Serves count) :
    ∃ after, read count reader = .ok (reader.source.rest.take count) after ∧
      reader.Advanced count after := by
  have hspan : reader.spans.find? (· < count) = none := by
    refine List.find?_eq_none.mpr fun left hleft => ?_
    simpa using h.allowed left hleft
  simp only [Reader.read, hspan, Source.read, h.refusal_eq_none]
  exact ⟨_, rfl, rfl, rfl, rfl, rfl, h.held, h.allowed⟩

theorem serves_of_read {after : Reader} {bytes : Bytes} (h : read count reader = .ok bytes after) :
    reader.Serves count := by
  obtain ⟨-, hadvanced⟩ := advanced_of_read h
  refine ⟨hadvanced.allowed, hadvanced.held, fun refuses hsupply => ?_⟩
  cases hrefuses : refuses reader.source.requests.length with
  | false => rfl
  | true =>
    simp only [read, Source.read, Source.refusal, hsupply, hrefuses, Bool.true_or, if_true] at h
    split at h
    · cases h
    · cases h

theorem read_of_not_serves (h : ¬ reader.Serves count) :
    ∃ error after, read count reader = .error error after ∧ reader.Advanced 0 after := by
  cases hread : read count reader with
  | ok bytes after => exact absurd (serves_of_read hread) h
  | error error after => exact ⟨error, after, rfl, advanced_of_refused hread⟩

end Reader

theorem Varint.lt_of_readLength {reader after : Reader} {length : Nat}
    (h : readLength reader = .ok length after) : length < 0x100000000 := by
  simp only [readLength, bind, EStateM.bind] at h
  cases hread : read reader with
  | error error middle =>
    rw [hread] at h
    cases h
  | ok value middle =>
    rw [hread] at h
    cases h
    exact value.toNat_lt

namespace Text

/-! ### What is fetched -/

/-- What comes of fetching a text of at most `capacity` bytes for field `number`. -/
structure Judged (number capacity : Nat) (reader : Reader) (fetched : Fetched String) : Prop where
  /-- It succeeds exactly if all is there that makes a text, and the text has the bytes behind the length. -/
  accepted : ∀ text, fetched.result = .ok text ↔
    ∃ length behind, Varint.readLength reader = .ok length behind ∧ length ≤ capacity ∧
      behind.Serves length ∧ Utf8.WellFormed (behind.source.rest.take length) ∧
      bytes text = behind.source.rest.take length
  /-- The length and the payload are taken then. -/
  taken : ∀ text length behind, fetched.result = .ok text →
    Varint.readLength reader = .ok length behind → behind.Advanced length fetched.reader
  unreadable : ∀ error after, Varint.readLength reader = .error error after →
    fetched.result = .error (.transfer error) ∧ fetched.reader = after
  /-- The text is too long, and nothing behind the length is read. -/
  tooLong : ∀ length behind, Varint.readLength reader = .ok length behind → capacity < length →
    fetched.result = .error (.capacityExceeded number capacity) ∧ fetched.reader = behind
  /-- The payload is not there, and nothing of it is taken. -/
  missing : ∀ length behind, Varint.readLength reader = .ok length behind → length ≤ capacity →
    ¬ behind.Serves length →
    ∃ error, fetched.result = .error (.transfer error) ∧ behind.Advanced 0 fetched.reader
  /-- The payload is no text, and it is taken. -/
  illFormed : ∀ length behind, Varint.readLength reader = .ok length behind → length ≤ capacity →
    behind.Serves length → ¬ Utf8.WellFormed (behind.source.rest.take length) →
    fetched.result = .error (.invalidText number) ∧ behind.Advanced length fetched.reader

section

variable {number capacity length : Nat} {reader behind : Reader}

theorem fetch_of_tooLong (hlength : Varint.readLength reader = .ok length behind)
    (hlong : capacity < length) :
    fetch number capacity reader =
      { result := .error (.capacityExceeded number capacity), reader := behind
        notices := [.textTooLong number length capacity] } := by
  simp only [fetch, hlength, if_pos hlong]

theorem fetch_of_fits (hlength : Varint.readLength reader = .ok length behind)
    (hfits : length ≤ capacity) :
    fetch number capacity reader = interpret number (.ofRead (Reader.read length) behind) := by
  simp only [fetch, hlength, if_neg (Nat.not_lt.mpr hfits)]

theorem fetch_of_missing (hlength : Varint.readLength reader = .ok length behind)
    (hfits : length ≤ capacity) (hmissing : ¬ behind.Serves length) :
    ∃ error after, fetch number capacity reader = { result := .error (.transfer error), reader := after } ∧
      behind.Advanced 0 after := by
  obtain ⟨error, after, hread, hadvanced⟩ := Reader.read_of_not_serves hmissing
  refine ⟨error, after, ?_, hadvanced⟩
  rw [fetch_of_fits hlength hfits, Fetched.ofRead, hread]
  rfl

theorem fetch_of_illFormed (hlength : Varint.readLength reader = .ok length behind)
    (hfits : length ≤ capacity) (hserves : behind.Serves length)
    (hill : ¬ Utf8.WellFormed (behind.source.rest.take length)) :
    ∃ after, fetch number capacity reader = { result := .error (.invalidText number), reader := after } ∧
      behind.Advanced length after := by
  obtain ⟨after, hread, hadvanced⟩ := hserves.read
  refine ⟨after, ?_, hadvanced⟩
  simp only [fetch_of_fits hlength hfits, Fetched.ofRead, hread, interpret,
    ofBytes?_eq_none_iff.mpr hill]

theorem fetch_of_wellFormed (hlength : Varint.readLength reader = .ok length behind)
    (hfits : length ≤ capacity) (hserves : behind.Serves length) {text : String}
    (htext : bytes text = behind.source.rest.take length) :
    ∃ after, fetch number capacity reader = { result := .ok text, reader := after } ∧
      behind.Advanced length after := by
  obtain ⟨after, hread, hadvanced⟩ := hserves.read
  refine ⟨after, ?_, hadvanced⟩
  simp only [fetch_of_fits hlength hfits, Fetched.ofRead, hread, interpret,
    ofBytes?_eq_some_iff.mpr htext]

theorem fetch_cases {text : String} (h : (fetch number capacity reader).result = .ok text) :
    ∃ length behind, Varint.readLength reader = .ok length behind ∧ length ≤ capacity ∧
      behind.Serves length ∧ bytes text = behind.source.rest.take length ∧
      behind.Advanced length (fetch number capacity reader).reader := by
  cases hlength : Varint.readLength reader with
  | error error after =>
    rw [fetch, hlength] at h
    cases h
  | ok length behind =>
    by_cases hlong : capacity < length
    · rw [fetch_of_tooLong hlength hlong] at h
      cases h
    have hfits : length ≤ capacity := Nat.not_lt.mp hlong
    by_cases hserves : behind.Serves length
    · by_cases hformed : Utf8.WellFormed (behind.source.rest.take length)
      · obtain ⟨other, hother⟩ := wellFormed_iff.mp hformed
        obtain ⟨after, hfetch, hadvanced⟩ :=
          fetch_of_wellFormed hlength hfits hserves hother
        rw [hfetch] at h ⊢
        cases h
        exact ⟨length, behind, rfl, hfits, hserves, hother, hadvanced⟩
      · obtain ⟨after, hfetch, -⟩ :=
          fetch_of_illFormed hlength hfits hserves hformed
        rw [hfetch] at h
        cases h
    · obtain ⟨error, after, hfetch, -⟩ :=
        fetch_of_missing hlength hfits hserves
      rw [hfetch] at h
      cases h

end

theorem judged_fetch (number capacity : Nat) (reader : Reader) :
    Judged number capacity reader (fetch number capacity reader) where
  accepted := by
    intro text
    constructor
    · intro h
      obtain ⟨length, behind, hlength, hfits, hserves, htext, -⟩ := fetch_cases h
      exact ⟨length, behind, hlength, hfits, hserves, wellFormed_iff.mpr ⟨text, htext⟩, htext⟩
    · rintro ⟨length, behind, hlength, hfits, hserves, -, htext⟩
      obtain ⟨after, hfetch, -⟩ := fetch_of_wellFormed hlength hfits hserves htext
      rw [hfetch]
  taken := by
    intro text length behind h hlength
    obtain ⟨length', behind', hlength', -, -, -, hadvanced⟩ := fetch_cases h
    rw [hlength] at hlength'
    cases hlength'
    exact hadvanced
  unreadable := by
    intro error after hlength
    rw [fetch, hlength]
    exact ⟨rfl, rfl⟩
  tooLong := by
    intro length behind hlength hlong
    rw [fetch_of_tooLong hlength hlong]
    exact ⟨rfl, rfl⟩
  missing := by
    intro length behind hlength hfits hmissing
    obtain ⟨error, after, hfetch, hadvanced⟩ :=
      fetch_of_missing hlength hfits hmissing
    rw [hfetch]
    exact ⟨error, rfl, hadvanced⟩
  illFormed := by
    intro length behind hlength hfits hserves hill
    obtain ⟨after, hfetch, hadvanced⟩ :=
      fetch_of_illFormed hlength hfits hserves hill
    rw [hfetch]
    exact ⟨rfl, hadvanced⟩

/-! ### What was written -/

theorem flatten_encode (number : Nat) (text : String) :
    (encode number text).flatten =
      Tag.encode ⟨number, .delimited⟩ ++ Delimited.payload (bytes text) := by
  simp [encode, Delimited.header, Delimited.payload]

theorem yields_fetch_iff (number capacity : Nat) (text : String) :
    Fetched.Yields (fetch number capacity) (Delimited.payload (bytes text)) text ↔
      text.utf8ByteSize ≤ capacity ∧ text.utf8ByteSize < 0x100000000 := by
  constructor
  · intro h
    obtain ⟨after, hfetch, -⟩ := h _ (Reader.offers_ofBytes (Delimited.payload (bytes text)))
    have hresult := congrArg Fetched.result hfetch
    obtain ⟨length, behind, hlength, hfits, hserves, htext, -⟩ := fetch_cases hresult
    have hcount := congrArg List.length htext
    rw [List.length_take_of_le hserves.held, length_bytes] at hcount
    rw [hcount]
    exact ⟨hfits, Varint.lt_of_readLength hlength⟩
  · rintro ⟨hfits, hsmall⟩
    exact yields_fetch number hfits hsmall

/-- A text is accepted exactly if it has the form of its field, and whatever is within the capacity is read back as it was written, as long as a length of 32 bits can be put in front of it. -/
theorem fetch_judged (number capacity : Nat) :
    (∀ reader : Reader, Judged number capacity reader (fetch number capacity reader)) ∧
    ∀ text : String,
      (encode number text).flatten =
        Tag.encode ⟨number, .delimited⟩ ++ Delimited.payload (bytes text) ∧
      (Fetched.Yields (fetch number capacity) (Delimited.payload (bytes text)) text ↔
        text.utf8ByteSize ≤ capacity ∧ text.utf8ByteSize < 0x100000000) :=
  ⟨judged_fetch number capacity, fun text =>
    ⟨flatten_encode number text, yields_fetch_iff number capacity text⟩⟩

/-- A text of 2^32 bytes is within a capacity of as many, but the length in front of it is written as zero, and what is read back is the empty text. -/
theorem not_yields_multiple :
    let text := "".pushn 'x' 0x100000000
    text.utf8ByteSize = 0x100000000 ∧
      (encode 1 text).flatten = Tag.encode ⟨1, .delimited⟩ ++ Delimited.payload (bytes text) ∧
      (fetch 1 0x100000000 (.ofBytes (Delimited.payload (bytes text)))).result = .ok "" ∧
      ¬ Fetched.Yields (fetch 1 0x100000000) (Delimited.payload (bytes text)) text := by
  intro text
  have hsize : text.utf8ByteSize = 0x100000000 := utf8ByteSize_pushn _
  have hempty : (fetch 1 0x100000000 (.ofBytes (Delimited.payload (bytes text)))).result = .ok "" :=
    fetch_of_multiple (Reader.offers_ofBytes _) (by rw [hsize])
  refine ⟨hsize, flatten_encode 1 text, hempty, fun h => ?_⟩
  obtain ⟨-, hsmall⟩ := (yields_fetch_iff 1 0x100000000 text).mp h
  omega

/-- Half of a surrogate pair is no character. -/
example : (fetch 3 8 (.ofBytes [0x03, 0xed, 0xa0, 0x80])).result.isOk = false := by cbv

end Text

end EngineConsole
