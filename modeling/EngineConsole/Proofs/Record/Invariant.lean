import EngineConsole.Proofs.Record.Codec
import EngineConsole.Proofs.Record.Room

/-!
# What merges keep

A property of values that every record keeps is kept by the record loop, by a span and by a list of elements, whether they fail or not. The limits are such properties: a text is fetched only up to its capacity, and a list grows only while it has room.
-/

namespace EngineConsole

namespace Merged

variable {α : Type} {P : α → Prop}

theorem holds_andThen {first : Merged α} {next : α → Reader → Merged α} (h : P first.value)
    (hnext : ∀ value reader, P value → P (next value reader).value) :
    P (first.andThen next).value := by
  rw [andThen]
  split
  · exact h
  · exact hnext first.value first.reader h

end Merged

theorem Fetched.holds_assign {α β : Type} {P : β → Prop} {fetched : Fetched α} {old : β}
    {place : α → β} (h : P old) (hplace : ∀ value, fetched.result = .ok value → P (place value)) :
    P (fetched.assign old place).value := by
  rw [assign]
  split
  · rename_i value hresult
    exact hplace value hresult
  · exact h

/-! ### Limits -/

theorem Text.utf8ByteSize_le_of_fetch {number capacity : Nat} {reader : Reader} {text : String}
    (h : (fetch number capacity reader).result = .ok text) : text.utf8ByteSize ≤ capacity := by
  rw [fetch] at h
  split at h
  · cases h
  · rename_i length middle _
    split at h
    · cases h
    · rename_i hfits
      rw [interpret, Fetched.ofRead] at h
      cases hread : Reader.read length middle with
      | error error after =>
        rw [hread] at h
        cases h
      | ok bytes after =>
        rw [hread] at h
        have hbytes := (Reader.advanced_of_read hread).1
        simp only at h
        split at h
        · rename_i found hfound
          cases h
          have hsize := utf8ByteSize_of_ofBytes? hfound
          have hlength := congrArg List.length hbytes
          rw [List.length_take] at hlength
          omega
        · cases h

namespace Floats

theorem length_le_of_mergeUnpacked (number : Nat) {capacity : Nat} {values : List Single}
    (reader : Reader) (h : values.length ≤ capacity) :
    (mergeUnpacked number capacity values reader).value.length ≤ capacity := by
  rw [mergeUnpacked_eq]
  split
  · exact h
  · rename_i hroom
    refine Fetched.holds_assign (P := fun values : List Single => values.length ≤ capacity) h fun value _ => ?_
    show (values ++ [value]).length ≤ capacity
    rw [List.length_append, List.length_singleton]
    omega

theorem length_le_of_fill (number : Nat) {capacity : Nat} (fuel : Nat) {values : List Single}
    (reader : Reader) (h : values.length ≤ capacity) :
    (fill number capacity fuel values reader).value.length ≤ capacity := by
  induction fuel generalizing values reader with
  | zero => exact h
  | succ fuel ih =>
    rw [fill]
    split
    · exact h
    · exact Merged.holds_andThen (P := fun values : List Single => values.length ≤ capacity)
        (length_le_of_mergeUnpacked number reader h) fun values reader hvalues => ih reader hvalues

theorem length_le_of_mergePacked (number : Nat) {capacity : Nat} {values : List Single}
    (reader : Reader) (h : values.length ≤ capacity) :
    (mergePacked number capacity values reader).value.length ≤ capacity := by
  rw [mergePacked]
  split
  · exact h
  · exact length_le_of_fill number _ _ h

end Floats

/-! ### Spans, loops and lists of elements -/

namespace Delimited

variable {α : Type} {P : α → Prop} {merge : α → Reader → Merged α}

theorem holds_mergeSpan (length : Nat) {value : α} (reader : Reader) (h : P value)
    (hmerge : ∀ value reader, P value → P (merge value reader).value) :
    P (mergeSpan merge length value reader).value :=
  Merged.holds_andThen (hmerge value (reader.enter length) h) fun value reader hvalue => by
    rw [skipRest]
    exact Fetched.holds_assign hvalue fun _ _ => hvalue

theorem holds_merge {value : α} (reader : Reader) (h : P value)
    (hmerge : ∀ value reader, P value → P (merge value reader).value) :
    P (Delimited.merge merge value reader).value := by
  rw [Delimited.merge]
  split
  · exact h
  · exact holds_mergeSpan _ _ h hmerge

theorem holds_mergeRecords {step : Tag → α → Reader → Merged α} (fuel : Nat) {value : α}
    (reader : Reader) (h : P value)
    (hstep : ∀ tag value reader, P value → P (step tag value reader).value) :
    P (mergeRecords step fuel value reader).value := by
  induction fuel generalizing value reader with
  | zero => exact h
  | succ fuel ih =>
    rw [mergeRecords]
    split
    · exact h
    · rename_i tag behindTag _
      exact Merged.holds_andThen (hstep tag value behindTag h) fun value reader hvalue =>
        ih reader hvalue

/-- A list of elements that all have the property stays one, and within its capacity. -/
theorem holds_append (number : Nat) {capacity : Nat} (greatest : Nat) {fresh : α} {values : List α}
    (reader : Reader) (hlength : values.length ≤ capacity) (hvalues : ∀ value ∈ values, P value)
    (hfresh : P fresh) (hmerge : ∀ value reader, P value → P (merge value reader).value) :
    (append number capacity greatest fresh merge values reader).value.length ≤ capacity ∧
      ∀ value ∈ (append number capacity greatest fresh merge values reader).value, P value := by
  rw [append_eq]
  split
  · exact ⟨hlength, hvalues⟩
  · rename_i length middle _
    split
    · exact ⟨hlength, hvalues⟩
    · split
      · exact ⟨hlength, hvalues⟩
      · rename_i hroom
        have helement := holds_mergeSpan length middle hfresh hmerge
        simp only [Merged.map]
        split
        · rw [List.length_append, List.length_singleton]
          refine ⟨by omega, fun value hvalue => ?_⟩
          rcases List.mem_append.mp hvalue with hold | hnew
          · exact hvalues value hold
          · rw [List.mem_singleton.mp hnew]
            exact helement
        · exact ⟨hlength, hvalues⟩

end Delimited

/-! ### Failures that keep the value -/

theorem Fetched.value_assign_of_error {α β : Type} {fetched : Fetched α} {old : β} {place : α → β}
    (h : (fetched.assign old place).error ≠ none) : (fetched.assign old place).value = old := by
  rw [assign] at h ⊢
  split at h
  · exact absurd rfl h
  · rfl

theorem Floats.value_mergeUnpacked_of_error {number capacity : Nat} {values : List Single}
    {reader : Reader} (h : (mergeUnpacked number capacity values reader).error ≠ none) :
    (mergeUnpacked number capacity values reader).value = values := by
  rw [mergeUnpacked_eq] at h ⊢
  split at h
  · rename_i hroom
    rw [if_pos hroom]
  · rename_i hroom
    rw [if_neg hroom]
    exact Fetched.value_assign_of_error h

theorem Delimited.value_append_of_error {α : Type} {number capacity greatest : Nat} {fresh : α}
    {merge : α → Reader → Merged α} {values : List α} {reader : Reader}
    (h : (append number capacity greatest fresh merge values reader).error ≠ none) :
    (append number capacity greatest fresh merge values reader).value = values := by
  rw [append_eq] at h ⊢
  split at h
  · rfl
  · split at h
    · rename_i hlength
      rw [if_pos hlength]
    · rename_i hlength
      rw [if_neg hlength]
      split at h
      · rename_i hroom
        rw [if_pos hroom]
      · rename_i hroom
        rw [if_neg hroom]
        simp only [Merged.map, Option.isNone_iff_eq_none] at h ⊢
        rw [if_neg h]

end EngineConsole
