import EngineConsole.Proofs.Record.Codec
import EngineConsole.Proofs.Record.Room

/-!
# How far a merge gets

Whatever the bytes are, a fetch or a merge only moves the reader on: it never goes back, never passes the end of an open span and closes the spans that it opens, also when it fails. And the record loop, whose steps are bounded by a number, always ends for a reason of its own, since every tag takes a byte.
-/

namespace EngineConsole

/-! ### Fetching -/

namespace Fetched

variable {α : Type}

/-- The fetch only moves the reader on. -/
def Moves (fetch : Reader → Fetched α) : Prop :=
  ∀ reader : Reader, reader.Reaches (fetch reader).reader

theorem moves_ofRead {op : Read α} (h : Read.Advances op) : Moves (ofRead op) := by
  intro reader
  rw [ofRead]
  cases hop : op reader with
  | ok value after => exact h.reaches_of_ok hop
  | error error after => exact h.reaches_of_error hop

end Fetched

theorem Scalar.moves_fetch {α : Type} (scalar : Scalar α) (number : Nat) :
    Fetched.Moves (scalar.fetch number) := by
  cases scalar with
  | uint32 => exact Fetched.moves_ofRead Varint.read_advances
  | fixed32 => exact Fetched.moves_ofRead Fixed32.read_advances
  | float => exact Fetched.moves_ofRead Single.read_advances
  | bool => exact Fetched.moves_ofRead Varint.readFlag_advances
  | enum enumeration =>
    intro reader
    have hread := Fetched.moves_ofRead Varint.read_advances reader
    simp only [fetch, recognize]
    split
    · exact hread
    · split
      · exact hread
      · exact hread

theorem Text.moves_fetch (number capacity : Nat) : Fetched.Moves (fetch number capacity) := by
  intro reader
  rw [fetch]
  cases hread : Varint.readLength reader with
  | error error middle => exact Varint.readLength_advances.reaches_of_error hread
  | ok length middle =>
    have hlength := Varint.readLength_advances.reaches_of_ok hread
    have hbytes := Fetched.moves_ofRead (Reader.read_advances length) middle
    simp only
    split
    · exact hlength
    · refine hlength.trans ?_
      rw [interpret]
      split
      · exact hbytes
      · split
        · exact hbytes
        · exact hbytes

/-! ### Merging -/

namespace Merged

variable {α β : Type}

/-- The merge only moves the reader on. -/
def Moves (merge : Reader → Merged α) : Prop :=
  ∀ reader : Reader, reader.Reaches (merge reader).reader

theorem moves_assign {fetch : Reader → Fetched α} (h : Fetched.Moves fetch) (old : β)
    (place : α → β) : Moves (fun reader => (fetch reader).assign old place) := by
  intro reader
  have hfetch := h reader
  simp only [Fetched.assign]
  split
  · exact hfetch
  · exact hfetch

theorem reaches_andThen {reader : Reader} {first : Merged α} {next : α → Reader → Merged α}
    (h : reader.Reaches first.reader) (hnext : ∀ value, Moves (next value)) :
    reader.Reaches (first.andThen next).reader := by
  rw [andThen]
  split
  · exact h
  · exact h.trans (hnext first.value first.reader)

end Merged

namespace Floats

theorem moves_mergeUnpacked (number capacity : Nat) (values : List Single) :
    Merged.Moves (mergeUnpacked number capacity values) := by
  intro reader
  rw [mergeUnpacked_eq]
  split
  · exact .refl reader
  · exact Merged.moves_assign (Fetched.moves_ofRead Single.read_advances) values _ reader

theorem moves_fill (number capacity fuel : Nat) (values : List Single) :
    Merged.Moves (fill number capacity fuel values) := by
  induction fuel generalizing values with
  | zero => exact fun reader => .refl reader
  | succ fuel ih =>
    intro reader
    rw [fill]
    split
    · exact .refl reader
    · exact Merged.reaches_andThen (moves_mergeUnpacked number capacity values reader) ih

/-- The bound on the floats is never what ends the filling of a list: without a failure, the span is used up. -/
theorem spanLeft_of_fill {number capacity fuel : Nat} {values : List Single} {reader : Reader}
    (hfuel : reader.spanLeft ≤ fuel) (h : (fill number capacity fuel values reader).error = none) :
    (fill number capacity fuel values reader).reader.spanLeft = 0 := by
  induction fuel generalizing values reader with
  | zero => exact Nat.le_zero.mp hfuel
  | succ fuel ih =>
    rw [fill] at h ⊢
    split at h
    · rename_i hleft
      rwa [if_pos hleft]
    · rename_i hleft
      rw [if_neg hleft]
      rw [mergeUnpacked_eq] at h ⊢
      split at h
      · cases h
      · rename_i hroom
        rw [if_neg hroom]
        rw [Fetched.ofRead] at h ⊢
        cases hread : Single.read reader with
        | error error after =>
          rw [hread] at h
          cases h
        | ok value after =>
          rw [hread] at h
          have hafter := (Single.advanced_of_read hread).spanLeft
          have hfuel' : after.spanLeft ≤ fuel := by
            rw [hafter, Fixed32.size]
            omega
          exact ih hfuel' h

theorem moves_mergePacked (number capacity : Nat) (values : List Single) :
    Merged.Moves (mergePacked number capacity values) := by
  intro reader
  rw [mergePacked]
  cases hread : Varint.readLength reader with
  | error error middle => exact Varint.readLength_advances.reaches_of_error hread
  | ok length middle =>
    have hlength := Varint.readLength_advances.reaches_of_ok hread
    exact hlength.trans (moves_fill number capacity length values (middle.enter length)).leave

end Floats

namespace Delimited

variable {α : Type} {merge : α → Reader → Merged α}

theorem moves_skipRest (value : α) : Merged.Moves (skipRest value) :=
  Merged.moves_assign (Fetched.moves_ofRead Reader.skipSpan_advances) value _

theorem moves_mergeSpan (length : Nat) {value : α} (h : Merged.Moves (merge value)) :
    Merged.Moves (mergeSpan merge length value) := by
  intro reader
  exact (Merged.reaches_andThen (h (reader.enter length)) moves_skipRest).leave

theorem spanLeft_of_skipRest {first : Merged α} (h : (first.andThen skipRest).error = none) :
    (first.andThen skipRest).reader.spanLeft = 0 := by
  rw [Merged.andThen] at h ⊢
  cases hfirst : first.error with
  | some error =>
    rw [hfirst] at h
    exact absurd (hfirst.symm.trans h) (Option.some_ne_none error)
  | none =>
    rw [hfirst] at h
    simp only [skipRest, Fetched.ofRead] at h ⊢
    cases hskip : Reader.skipSpan first.reader with
    | error error after =>
      rw [hskip] at h
      cases h
    | ok _ after => exact Reader.spanLeft_of_skipSpan hskip

/-- A merge that succeeds takes its span as a whole. -/
theorem advanced_of_mergeSpan {length : Nat} {value : α} {reader : Reader}
    (hmoves : Merged.Moves (merge value))
    (h : (mergeSpan merge length value reader).error = none) :
    reader.Advanced length (mergeSpan merge length value reader).reader := by
  have hreaches := Merged.reaches_andThen (hmoves (reader.enter length)) moves_skipRest
  exact hreaches.advanced_leave (spanLeft_of_skipRest h)

theorem moves_merge {value : α} (h : Merged.Moves (merge value)) :
    Merged.Moves (Delimited.merge merge value) := by
  intro reader
  rw [Delimited.merge]
  cases hread : Varint.readLength reader with
  | error error middle => exact Varint.readLength_advances.reaches_of_error hread
  | ok length middle =>
    have hlength := Varint.readLength_advances.reaches_of_ok hread
    exact hlength.trans (moves_mergeSpan length h middle)

theorem moves_append (number capacity greatest : Nat) {fresh : α} (values : List α)
    (h : Merged.Moves (merge fresh)) :
    Merged.Moves (append number capacity greatest fresh merge values) := by
  intro reader
  rw [append_eq]
  cases hread : Varint.readLength reader with
  | error error middle => exact Varint.readLength_advances.reaches_of_error hread
  | ok length middle =>
    have hlength := Varint.readLength_advances.reaches_of_ok hread
    simp only
    split
    · exact hlength
    · split
      · exact hlength
      · exact hlength.trans (moves_mergeSpan length h middle)

end Delimited

/-! ### The record loop -/

namespace Tag

theorem read_moves (reader : Reader) : reader.Reaches (read reader).2 := by
  rw [read]
  cases hread : Varint.read reader with
  | ok value after => exact Varint.read_advances.reaches_of_ok hread
  | error error after => exact Varint.read_advances.reaches_of_error hread

theorem unread_lt_of_read {reader after : Reader} {tag : Tag} (h : read reader = (some tag, after)) :
    after.unread < reader.unread := by
  rw [read] at h
  cases hread : Varint.read reader with
  | ok value middle =>
    rw [hread] at h
    cases h
    exact Varint.read_consumes hread
  | error error middle =>
    rw [hread] at h
    cases h

end Tag

namespace Delimited

variable {α : Type} {step : Tag → α → Reader → Merged α}

/-- The record loop as it is meant, without a bound on its steps: it goes on until no tag can be read or a record fails. -/
inductive Run (step : Tag → α → Reader → Merged α) : α → Reader → Merged α → Prop
  | stop {value : α} {reader after : Reader} (head : Tag.read reader = (none, after)) :
      Run step value reader { value, reader := after }
  | fail {value : α} {reader behindTag : Reader} {tag : Tag} {error : DecodeError}
      (head : Tag.read reader = (some tag, behindTag))
      (failed : (step tag value behindTag).error = some error) :
      Run step value reader (step tag value behindTag)
  | next {value : α} {reader behindTag : Reader} {tag : Tag} {others : Merged α}
      (head : Tag.read reader = (some tag, behindTag))
      (done : (step tag value behindTag).error = none)
      (rest : Run step (step tag value behindTag).value (step tag value behindTag).reader others) :
      Run step value reader
        { others with notices := (step tag value behindTag).notices ++ others.notices }

theorem moves_mergeRecords (h : ∀ tag value, Merged.Moves (step tag value)) (fuel : Nat)
    (value : α) : Merged.Moves (mergeRecords step fuel value) := by
  induction fuel generalizing value with
  | zero => exact fun reader => .refl reader
  | succ fuel ih =>
    intro reader
    have htag := Tag.read_moves reader
    rw [mergeRecords]
    split
    · rename_i after hread
      rwa [hread] at htag
    · rename_i tag behindTag hread
      rw [hread] at htag
      exact htag.trans (Merged.reaches_andThen (h tag value behindTag) ih)

/-- With more steps than there are bytes left, the bound is never what ends the loop. -/
theorem run_mergeRecords (h : ∀ tag value, Merged.Moves (step tag value)) {fuel : Nat} {value : α}
    {reader : Reader} (hfuel : reader.unread < fuel) :
    Run step value reader (mergeRecords step fuel value reader) := by
  induction fuel generalizing value reader with
  | zero => omega
  | succ fuel ih =>
    rw [mergeRecords]
    split
    · rename_i after hread
      exact .stop hread
    · rename_i tag behindTag hread
      -- the tag took a byte and the record gave none back, so fewer steps suffice behind it
      have hbehindTag := Tag.unread_lt_of_read hread
      have hstep := (h tag value behindTag).unread_le
      cases herror : (step tag value behindTag).error with
      | some error =>
        rw [Merged.andThen, herror]
        exact .fail hread herror
      | none =>
        rw [Merged.andThen, herror]
        exact .next hread herror (ih (by omega))

end Delimited

end EngineConsole
