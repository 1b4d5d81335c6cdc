import EngineConsole.Proofs.Record.Obstruction

/-!
# Lists that run full

A list takes what an encoder wrote as long as it has room. The first float or element beyond its capacity stops the merge.
-/

namespace EngineConsole

def DecodeError.IsOverflow (error : DecodeError) : Prop :=
  ∃ number capacity, error = .capacityExceeded number capacity

/-! ### Lists of floats -/

namespace Floats

theorem mergeUnpacked_of_full (number : Nat) {capacity : Nat} {values : List Single}
    (hfull : capacity ≤ values.length) (reader : Reader) :
    (mergeUnpacked number capacity values reader).error =
      some (.capacityExceeded number capacity) := by
  rw [mergeUnpacked_eq, if_pos hfull]

/-- The floats join the list until it is full, and the next one is not even read. -/
theorem error_fill_of_offers (number : Nat) {capacity : Nat} (values : List Single) {fuel : Nat}
    {old : List Single} {reader : Reader} (hfuel : values.length ≤ fuel)
    (hold : old.length ≤ capacity) (hmany : capacity < old.length + values.length)
    (hleft : reader.spanLeft = values.length * Fixed32.size)
    (hoffers : reader.Offers (values.flatMap Single.encode)) :
    (fill number capacity fuel old reader).error = some (.capacityExceeded number capacity) := by
  induction values generalizing fuel old reader with
  | nil =>
    rw [List.length_nil] at hmany
    omega
  | cons value values ih =>
    obtain ⟨fuel, rfl⟩ : ∃ more, fuel = more + 1 := ⟨fuel - 1, by simp at hfuel; omega⟩
    simp only [List.length_cons] at hfuel hmany hleft
    have hspan : reader.spanLeft ≠ 0 := by
      rw [hleft, Nat.succ_mul]
      exact Nat.succ_ne_zero _
    by_cases hfull : capacity ≤ old.length
    · have herror := mergeUnpacked_of_full number hfull reader
      rw [fill, if_neg hspan, Merged.andThen_of_error herror, herror]
    · rw [List.flatMap_cons] at hoffers
      obtain ⟨middle, hstep, hmiddle⟩ :=
        fill_succ_of_offers number fuel hspan (Nat.lt_of_not_le hfull) hoffers.of_append_left
      rw [hstep]
      refine ih (Nat.le_of_succ_le_succ hfuel) ?_ ?_ ?_ (hoffers.advance hmiddle)
      · rw [List.length_append, List.length_singleton]
        omega
      · rw [List.length_append, List.length_singleton]
        omega
      · rw [hmiddle.spanLeft, hleft, Single.length_encode, Nat.succ_mul, Nat.add_sub_cancel]

theorem overflows_mergePacked (number : Nat) {capacity : Nat} {old values : List Single}
    (hcapacity : capacity * 4 < 0x100000000) (hold : old.length ≤ capacity)
    (hvalues : values.length ≤ capacity) (hmany : capacity < old.length + values.length) :
    Merged.Fails DecodeError.IsOverflow (mergePacked number capacity old)
      (Delimited.payload (values.flatMap Single.encode)) := by
  intro reader hoffers
  have hlength := length_flatMap_encode values
  have hsmall : (values.flatMap Single.encode).length < 0x100000000 := by
    rw [hlength, Fixed32.size]
    omega
  obtain ⟨middle, hread, hmiddle⟩ :=
    Varint.yields_readLength hsmall reader hoffers.of_append_left
  have hfuel : values.length ≤ (values.flatMap Single.encode).length := by
    rw [hlength, Fixed32.size]
    omega
  have hfill := error_fill_of_offers number values hfuel hold hmany
    (show (middle.enter (values.flatMap Single.encode).length).spanLeft = _ from hlength)
    ((hoffers.advance hmiddle).enter (Nat.le_refl _))
  refine ⟨_, ?_, number, capacity, rfl⟩
  rw [mergePacked, hread]
  exact hfill

end Floats

namespace Delimited

theorem overflows_append {α : Type} {merge : α → Reader → Merged α} {content : Bytes} (number : Nat)
    {capacity greatest : Nat} (fresh : α) {values : List α} (hgreatest : greatest < 0x100000000)
    (hlength : content.length ≤ greatest) (hfull : capacity ≤ values.length) :
    Merged.Fails DecodeError.IsOverflow (append number capacity greatest fresh merge values)
      (payload content) := by
  intro reader hoffers
  obtain ⟨middle, hread, hmiddle⟩ :=
    Varint.yields_readLength (Nat.lt_of_le_of_lt hlength hgreatest) reader hoffers.of_append_left
  refine ⟨.capacityExceeded number capacity, ?_, number, capacity, rfl⟩
  simp only [append_eq, hread, if_neg (Nat.not_lt.mpr hlength), if_pos hfull]

end Delimited

end EngineConsole
