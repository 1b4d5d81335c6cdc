import EngineConsole.Proofs.Bytes.Delivery

/-!
# Reading from memory

With no span open, a source in memory refuses only what goes beyond its end, and the refusal says how much is left and takes nothing. So the bytes that such a reader has left determine every answer it gives.
-/

namespace EngineConsole.Reader

/-- The reader goes through memory with no span open and has `data` left. -/
structure Holds (reader : Reader) (data : Bytes) : Prop where
  memory : reader.source.supply = .memory
  rest : reader.source.rest = data
  spans : reader.spans = []

variable {reader after : Reader} {data more : Bytes}

theorem holds_ofBytes (data : Bytes) : (ofBytes data).Holds data := ⟨rfl, rfl, rfl⟩

theorem Holds.unread (h : reader.Holds data) : reader.unread = data.length :=
  congrArg List.length h.rest

theorem Holds.offers (h : reader.Holds data) : reader.Offers data where
  willing := by
    rw [h.memory]
    trivial
  next := h.rest ▸ List.prefix_refl data
  allowed := by
    rw [h.spans]
    exact List.forall_mem_nil _

theorem Holds.advance (h : reader.Holds (data ++ more))
    (hadvanced : reader.Advanced data.length after) : after.Holds more where
  memory := hadvanced.supply.trans h.memory
  rest := by rw [hadvanced.rest, h.rest, List.drop_left]
  spans := by rw [hadvanced.spans, h.spans, List.map_nil]

theorem Holds.read_beyond (h : reader.Holds data) {count : Nat} (hcount : data.length < count) :
    ∃ after, read count reader = .error (.endOfData count data.length) after ∧
      reader.Advanced 0 after := by
  have hlacks : ¬ reader.source.holds count = true := by
    rw [Source.holds_iff, h.rest]
    omega
  rcases read_cases count reader with ⟨after, _, hadvanced⟩ | ⟨error, after, hread, hadvanced⟩
  · have hheld := hadvanced.held
    rw [h.unread] at hheld
    omega
  · refine ⟨after, ?_, hadvanced⟩
    simp only [read, h.spans, List.find?_nil, Source.read, Source.refusal, h.memory, if_neg hlacks,
      h.rest] at hread ⊢
    cases hread
    rfl

end EngineConsole.Reader
