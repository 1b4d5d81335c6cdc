import EngineConsole.Proofs.Record.Reach

/-!
# Two readers side by side

A merge learns about its reader in two ways only: it requests bytes, and it asks what is left of the innermost span. So a relation between two readers that requests keep, and that is kept when a span is opened or closed on both sides, is kept by every fetch and every merge. From related readers both sides come to the same value with the same notices, and if they fail, they fail alike. An invariant of a single reader is the case of a reader beside itself.
-/

namespace EngineConsole

/-! ### Outcomes that are alike -/

/-- Two reads end alike: both deliver the same, or both fail with related failures, where it may matter what the first source was asked for. The readers that they leave behind are related either way. -/
inductive Read.Alike {α : Type} (R : Reader → Reader → Prop)
    (E : Source → TransferError → TransferError → Prop) :
    EStateM.Result TransferError Reader α → EStateM.Result TransferError Reader α → Prop where
  | ok {value : α} {reader other : Reader} (readers : R reader other) :
      Alike R E (.ok value reader) (.ok value other)
  | error {failure failure' : TransferError} {reader other : Reader}
      (failures : E reader.source failure failure') (readers : R reader other) :
      Alike R E (.error failure reader) (.error failure' other)

theorem Read.Alike.elim {α : Type} {Q : Reader → Reader → Prop}
    {E : Source → TransferError → TransferError → Prop}
    {first second : EStateM.Result TransferError Reader α} (h : Alike Q E first second) :
    (∃ value reader other, first = .ok value reader ∧ second = .ok value other ∧ Q reader other) ∨
    ∃ failure failure' reader other, first = .error failure reader ∧
      second = .error failure' other ∧ E reader.source failure failure' ∧ Q reader other := by
  cases h with
  | ok readers => exact .inl ⟨_, _, _, rfl, rfl, readers⟩
  | error failures readers => exact .inr ⟨_, _, _, _, rfl, rfl, failures, readers⟩

inductive DecodeError.Alike (E : TransferError → TransferError → Prop) :
    DecodeError → DecodeError → Prop where
  | same (error : DecodeError) (cause : error.cause = none) : Alike E error error
  | transfer {failure failure' : TransferError} (failures : E failure failure') :
      Alike E (.transfer failure) (.transfer failure')

inductive Fetched.Alike {α : Type} (R : Reader → Reader → Prop)
    (E : Source → TransferError → TransferError → Prop) : Fetched α → Fetched α → Prop where
  | ok {value : α} {notices : List Notice} {reader other : Reader} (readers : R reader other) :
      Alike R E ⟨.ok value, reader, notices⟩ ⟨.ok value, other, notices⟩
  | error {error error' : DecodeError} {notices : List Notice} {reader other : Reader}
      (errors : DecodeError.Alike (E reader.source) error error') (readers : R reader other) :
      Alike R E ⟨.error error, reader, notices⟩ ⟨.error error', other, notices⟩

/-- Two merges end alike: with the same value and the same notices, and both succeed or both fail alike. -/
structure Merged.Alike {α : Type} (R : Reader → Reader → Prop)
    (E : Source → TransferError → TransferError → Prop) (first second : Merged α) : Prop where
  value : first.value = second.value
  reader : R first.reader second.reader
  notices : first.notices = second.notices
  error : Option.Rel (DecodeError.Alike (E first.reader.source)) first.error second.error

abbrev TransferError.Same (_ : Source) (failure failure' : TransferError) : Prop :=
  failure = failure'

/-- A relation between readers that requests keep. It has a number that counts the spans which were opened on both sides; of these at least the two sides know the same. A span is opened only right behind its length. -/
structure Reader.Simulation (R : Nat → Reader → Reader → Prop)
    (E : Source → TransferError → TransferError → Prop) : Prop where
  read : ∀ {depth : Nat} {reader other : Reader}, R depth reader other → ∀ count : Nat,
    Read.Alike (R depth) E (Reader.read count reader) (Reader.read count other)
  enter : ∀ {depth length : Nat} {before before' reader other : Reader}, R depth before before' →
    Varint.readLength before = .ok length reader → Varint.readLength before' = .ok length other →
    R depth reader other → R (depth + 1) (reader.enter length) (other.enter length)
  leave : ∀ {depth : Nat} {reader other : Reader}, R (depth + 1) reader other →
    R depth reader.leave other.leave
  spanLeft : ∀ {depth : Nat} {reader other : Reader}, R (depth + 1) reader other →
    reader.spanLeft = other.spanLeft
  overlong : ∀ source : Source, E source .overlongVarint .overlongVarint

variable {R : Nat → Reader → Reader → Prop} {E : Source → TransferError → TransferError → Prop}

/-- An invariant that a reader keeps under requests relates the reader to itself. -/
theorem Reader.Simulation.ofInvariant {I : Nat → Reader → Prop}
    (hread : ∀ depth reader count, I depth reader → I depth (Read.after (Reader.read count) reader))
    (henter : ∀ depth reader length, I depth reader → I (depth + 1) (reader.enter length))
    (hleave : ∀ depth reader, I (depth + 1) reader → I depth reader.leave) :
    Simulation (fun depth reader other => reader = other ∧ I depth reader) TransferError.Same where
  read := by
    rintro depth reader _ ⟨rfl, h⟩ count
    have hafter := hread depth reader count h
    rw [Read.after] at hafter
    cases hresult : Reader.read count reader with
    | ok bytes after =>
      rw [hresult] at hafter
      exact .ok ⟨rfl, hafter⟩
    | error failure after =>
      rw [hresult] at hafter
      exact .error rfl ⟨rfl, hafter⟩
  enter := by
    rintro depth length _ _ reader _ - - - ⟨rfl, h⟩
    exact ⟨rfl, henter depth reader length h⟩
  leave := by
    rintro depth reader _ ⟨rfl, h⟩
    exact ⟨rfl, hleave depth reader h⟩
  spanLeft := by
    rintro depth reader _ ⟨rfl, _⟩
    rfl
  overlong _ := rfl

/-! ### Reads -/

namespace Read

variable {α β : Type}

/-- From related readers the computation ends alike. -/
def Follows (R : Nat → Reader → Reader → Prop) (E : Source → TransferError → TransferError → Prop)
    (op : Read α) : Prop :=
  ∀ ⦃depth : Nat⦄ ⦃reader other : Reader⦄, R depth reader other →
    Alike (R depth) E (op reader) (op other)

theorem follows_pure (value : α) : Follows R E (pure value) := fun _ _ _ hreaders => .ok hreaders

theorem follows_throw {failure : TransferError} (h : ∀ source, E source failure failure) :
    Follows R E (throw failure : Read α) := fun _ reader _ hreaders =>
  .error (h reader.source) hreaders

theorem Follows.bind {op : Read α} {next : α → Read β} (h : Follows R E op)
    (hnext : ∀ value, Follows R E (next value)) : Follows R E (op >>= next) := by
  intro depth reader other hreaders
  have hop := h hreaders
  simp only [Bind.bind, EStateM.bind]
  generalize op reader = first at hop ⊢
  generalize op other = second at hop ⊢
  cases hop with
  | ok hreaders => exact hnext _ hreaders
  | error hfailures hreaders => exact .error hfailures hreaders

end Read

namespace Reader.Simulation

variable (simulation : Reader.Simulation R E)

include simulation

theorem follows_read (count : Nat) : Read.Follows R E (Reader.read count) :=
  fun _ _ _ hreaders => simulation.read hreaders count

theorem follows_readByte : Read.Follows R E Reader.readByte :=
  (simulation.follows_read 1).bind fun bytes => Read.follows_pure (bytes.headD 0)

theorem follows_skipBytes (fuel left : Nat) : Read.Follows R E (Reader.skipBytes fuel left) := by
  induction fuel generalizing left with
  | zero => exact Read.follows_pure ()
  | succ fuel ih =>
    rw [Reader.skipBytes]
    split
    · exact Read.follows_pure ()
    · exact (simulation.follows_read _).bind fun _ => ih _

theorem alike_skipSpan {depth : Nat} {reader other : Reader} (hreaders : R depth reader other)
    (hleft : reader.spanLeft = other.spanLeft) :
    Read.Alike (R depth) E (Reader.skipSpan reader) (Reader.skipSpan other) := by
  rw [Reader.skipSpan, Reader.skipSpan, hleft]
  exact simulation.follows_skipBytes _ _ hreaders

theorem follows_readGroups (groups : Nat) : Read.Follows R E (Varint.readGroups groups) := by
  induction groups with
  | zero => exact Read.follows_throw simulation.overlong
  | succ groups ih =>
    refine simulation.follows_readByte.bind fun byte => ?_
    split
    · exact Read.follows_pure _
    · exact ih.bind fun high => Read.follows_pure _

theorem follows_readVarint : Read.Follows R E Varint.read :=
  (simulation.follows_readGroups Varint.maxSize).bind fun _ => Read.follows_pure _

theorem follows_readFlag : Read.Follows R E Varint.readFlag :=
  simulation.follows_readVarint.bind fun _ => Read.follows_pure _

theorem follows_readLength : Read.Follows R E Varint.readLength :=
  simulation.follows_readVarint.bind fun _ => Read.follows_pure _

theorem follows_readFixed32 : Read.Follows R E Fixed32.read :=
  (simulation.follows_read Fixed32.size).bind fun _ => Read.follows_pure _

theorem follows_readSingle : Read.Follows R E Single.read :=
  simulation.follows_readFixed32.bind fun _ => Read.follows_pure _

theorem alike_readTag {depth : Nat} {reader other : Reader} (hreaders : R depth reader other) :
    (Tag.read reader).1 = (Tag.read other).1 ∧ R depth (Tag.read reader).2 (Tag.read other).2 := by
  have hread := simulation.follows_readVarint hreaders
  rw [Tag.read, Tag.read]
  generalize Varint.read reader = first at hread ⊢
  generalize Varint.read other = second at hread ⊢
  cases hread with
  | ok hreaders => exact ⟨rfl, hreaders⟩
  | error _ hreaders => exact ⟨rfl, hreaders⟩

end Reader.Simulation

/-! ### Fetches -/

namespace Fetched

variable {α β : Type}

/-- From related readers the fetch ends alike. -/
def Follows (R : Nat → Reader → Reader → Prop) (E : Source → TransferError → TransferError → Prop)
    (fetch : Reader → Fetched α) : Prop :=
  ∀ ⦃depth : Nat⦄ ⦃reader other : Reader⦄, R depth reader other →
    Alike (R depth) E (fetch reader) (fetch other)

theorem alike_ofRead {Q : Reader → Reader → Prop} {op : Read α} {reader other : Reader}
    (h : Read.Alike Q E (op reader) (op other)) : Alike Q E (ofRead op reader) (ofRead op other) := by
  rw [ofRead, ofRead]
  generalize op reader = first at h ⊢
  generalize op other = second at h ⊢
  cases h with
  | ok hreaders => exact .ok hreaders
  | error hfailures hreaders => exact .error (.transfer hfailures) hreaders

theorem follows_ofRead {op : Read α} (h : Read.Follows R E op) : Follows R E (ofRead op) :=
  fun _ _ _ hreaders => alike_ofRead (h hreaders)

theorem Alike.assign {Q : Reader → Reader → Prop} {first second : Fetched α}
    (h : Alike Q E first second) (old : β) (place : α → β) :
    Merged.Alike Q E (first.assign old place) (second.assign old place) := by
  cases h with
  | ok hreaders => exact ⟨rfl, hreaders, rfl, .none⟩
  | error herrors hreaders => exact ⟨rfl, hreaders, rfl, .some herrors⟩

end Fetched

namespace Reader.Simulation

variable {α β : Type} (simulation : Reader.Simulation R E)

include simulation

theorem follows_scalar (scalar : Scalar α) (number : Nat) :
    Fetched.Follows R E (scalar.fetch number) := by
  cases scalar with
  | uint32 => exact Fetched.follows_ofRead simulation.follows_readVarint
  | fixed32 => exact Fetched.follows_ofRead simulation.follows_readFixed32
  | float => exact Fetched.follows_ofRead simulation.follows_readSingle
  | bool => exact Fetched.follows_ofRead simulation.follows_readFlag
  | enum enumeration =>
    intro depth reader other hreaders
    have hfetch := Fetched.follows_ofRead simulation.follows_readVarint hreaders
    rw [Scalar.fetch, Scalar.fetch, Scalar.recognize, Scalar.recognize]
    generalize Fetched.ofRead Varint.read reader = first at hfetch ⊢
    generalize Fetched.ofRead Varint.read other = second at hfetch ⊢
    cases hfetch with
    | ok hreaders =>
      simp only
      split
      · exact .ok hreaders
      · exact .error (.same _ rfl) hreaders
    | error herrors hreaders => exact .error herrors hreaders

theorem follows_text (number capacity : Nat) :
    Fetched.Follows R E (Text.fetch number capacity) := by
  intro depth reader other hreaders
  have hlength := simulation.follows_readLength hreaders
  rw [Text.fetch, Text.fetch]
  generalize Varint.readLength reader = first at hlength ⊢
  generalize Varint.readLength other = second at hlength ⊢
  cases hlength with
  | error hfailures hreaders => exact .error (.transfer hfailures) hreaders
  | @ok length behind behind' hreaders =>
    simp only
    split
    · exact .error (.same _ rfl) hreaders
    · have hbytes := Fetched.follows_ofRead (simulation.follows_read length) hreaders
      rw [Text.interpret, Text.interpret]
      generalize Fetched.ofRead (Reader.read length) behind = first at hbytes ⊢
      generalize Fetched.ofRead (Reader.read length) behind' = second at hbytes ⊢
      cases hbytes with
      | ok hreaders =>
        simp only
        split
        · exact .ok hreaders
        · exact .error (.same _ rfl) hreaders
      | error herrors hreaders => exact .error herrors hreaders

end Reader.Simulation

/-! ### Merges -/

namespace Merged

variable {α β : Type} {Q : Reader → Reader → Prop}

/-- From related readers the merge ends alike. -/
def Follows (R : Nat → Reader → Reader → Prop) (E : Source → TransferError → TransferError → Prop)
    (merge : Reader → Merged α) : Prop :=
  ∀ ⦃depth : Nat⦄ ⦃reader other : Reader⦄, R depth reader other →
    Alike (R depth) E (merge reader) (merge other)

theorem Alike.map {first second : Merged α} (h : Alike Q E first second) (f : α → β) :
    Alike Q E (first.map f) (second.map f) :=
  ⟨congrArg f h.value, h.reader, h.notices, h.error⟩

theorem Alike.isNone_error {first second : Merged α} (h : Alike Q E first second) :
    first.error.isNone = second.error.isNone := by
  have herror := h.error
  generalize first.error = error at herror ⊢
  generalize second.error = error' at herror ⊢
  cases herror with
  | none => rfl
  | some _ => rfl

/-- Two merges that are alike may go on with different merges, if these are alike from where the first ones ended. -/
theorem Alike.andThen {first second : Merged α} {next next' : α → Reader → Merged α}
    (h : Alike Q E first second)
    (hnext : Alike Q E (next first.value first.reader) (next' first.value second.reader)) :
    Alike Q E (first.andThen next) (second.andThen next') := by
  obtain ⟨value, reader, notices, error⟩ := first
  obtain ⟨value', other, notices', error'⟩ := second
  obtain ⟨rfl, hreader, rfl, herror⟩ := h
  cases herror with
  | none => exact ⟨hnext.value, hnext.reader, congrArg (notices ++ ·) hnext.notices, hnext.error⟩
  | some herrors => exact ⟨rfl, hreader, rfl, .some herrors⟩

theorem Alike.error_eq {first second : Merged α} (h : Alike Q TransferError.Same first second) :
    first.error = second.error := by
  have herror := h.error
  generalize first.error = error at herror ⊢
  generalize second.error = error' at herror ⊢
  cases herror with
  | none => rfl
  | some herrors =>
    cases herrors with
    | same error _ => rfl
    | transfer hfailures => rw [hfailures]

end Merged

namespace Reader.Simulation

variable {α : Type} (simulation : Reader.Simulation R E) {merge : α → Reader → Merged α}

include simulation

theorem follows_mergeUnpacked (number capacity : Nat) (values : List Single) :
    Merged.Follows R E (Floats.mergeUnpacked number capacity values) := by
  intro depth reader other hreaders
  rw [Floats.mergeUnpacked_eq, Floats.mergeUnpacked_eq]
  split
  · exact ⟨rfl, hreaders, rfl, .some (.same _ rfl)⟩
  · exact (Fetched.follows_ofRead simulation.follows_readSingle hreaders).assign values _

theorem alike_fill (number capacity fuel : Nat) (values : List Single) {depth : Nat}
    {reader other : Reader} (hreaders : R depth reader other)
    (hleft : reader.spanLeft = other.spanLeft) :
    Merged.Alike (R depth) E (Floats.fill number capacity fuel values reader)
      (Floats.fill number capacity fuel values other) := by
  induction fuel generalizing values reader other with
  | zero => exact ⟨rfl, hreaders, rfl, .none⟩
  | succ fuel ih =>
    rw [Floats.fill, Floats.fill, hleft]
    split
    · exact ⟨rfl, hreaders, rfl, .none⟩
    · rw [Floats.mergeUnpacked_eq, Floats.mergeUnpacked_eq]
      split
      · exact ⟨rfl, hreaders, rfl, .some (.same _ rfl)⟩
      · rcases (simulation.follows_readSingle hreaders).elim with
          ⟨value, behind, behind', hread, hread', hreaders⟩ |
          ⟨failure, failure', behind, behind', hread, hread', hfailures, hreaders⟩
        · -- a float takes four bytes of the span on both sides
          have hbehind := (Single.advanced_of_read hread).spanLeft
          have hbehind' := (Single.advanced_of_read hread').spanLeft
          rw [Fetched.ofRead, Fetched.ofRead, hread, hread']
          exact ih (values ++ [value]) hreaders (hbehind.trans (hleft ▸ hbehind'.symm))
        · rw [Fetched.ofRead, Fetched.ofRead, hread, hread']
          exact ⟨rfl, hreaders, rfl, .some (.transfer hfailures)⟩

/-- A merge that begins with a length ends alike, if it does so behind the length, where a span of that length may be opened. -/
theorem alike_behindLength {value : α} {next : Nat → Reader → Merged α} {depth : Nat}
    {reader other : Reader} (hreaders : R depth reader other)
    (hnext : ∀ {length : Nat} {behind behind' : Reader}, R depth behind behind' →
      R (depth + 1) (behind.enter length) (behind'.enter length) →
      Merged.Alike (R depth) E (next length behind) (next length behind')) :
    Merged.Alike (R depth) E
      (match Varint.readLength reader with
        | .error error behind => { value, reader := behind, error := some (.transfer error) }
        | .ok length behind => next length behind)
      (match Varint.readLength other with
        | .error error behind => { value, reader := behind, error := some (.transfer error) }
        | .ok length behind => next length behind) := by
  rcases (simulation.follows_readLength hreaders).elim with
    ⟨length, behind, behind', hread, hread', hbehind⟩ |
    ⟨failure, failure', behind, behind', hread, hread', hfailures, hbehind⟩
  · rw [hread, hread']
    exact hnext hbehind (simulation.enter hreaders hread hread' hbehind)
  · rw [hread, hread']
    exact ⟨rfl, hbehind, rfl, .some (.transfer hfailures)⟩

theorem follows_mergePacked (number capacity : Nat) (values : List Single) :
    Merged.Follows R E (Floats.mergePacked number capacity values) := by
  intro depth reader other hreaders
  rw [Floats.mergePacked, Floats.mergePacked]
  refine simulation.alike_behindLength hreaders fun {length} _ _ _ hinside => ?_
  have hfill := simulation.alike_fill number capacity length values hinside rfl
  exact ⟨hfill.value, simulation.leave hfill.reader, hfill.notices, hfill.error⟩

theorem alike_skipRest (value : α) {depth : Nat} {reader other : Reader}
    (hreaders : R depth reader other) (hleft : reader.spanLeft = other.spanLeft) :
    Merged.Alike (R depth) E (Delimited.skipRest value reader) (Delimited.skipRest value other) :=
  (Fetched.alike_ofRead (simulation.alike_skipSpan hreaders hleft)).assign value _

theorem alike_mergeSpan {value : α} (h : Merged.Follows R E (merge value)) {depth length : Nat}
    {reader other : Reader} (hinside : R (depth + 1) (reader.enter length) (other.enter length)) :
    Merged.Alike (R depth) E (Delimited.mergeSpan merge length value reader)
      (Delimited.mergeSpan merge length value other) := by
  have hmerge := h hinside
  have hskip := simulation.alike_skipRest (merge value (reader.enter length)).value hmerge.reader
    (simulation.spanLeft hmerge.reader)
  have hspan := hmerge.andThen hskip
  exact ⟨hspan.value, simulation.leave hspan.reader, hspan.notices, hspan.error⟩

theorem follows_merge {value : α} (h : Merged.Follows R E (merge value)) :
    Merged.Follows R E (Delimited.merge merge value) := by
  intro depth reader other hreaders
  rw [Delimited.merge, Delimited.merge]
  exact simulation.alike_behindLength hreaders fun _ hinside => simulation.alike_mergeSpan h hinside

theorem follows_append (number capacity greatest : Nat) {fresh : α} (values : List α)
    (h : Merged.Follows R E (merge fresh)) :
    Merged.Follows R E (Delimited.append number capacity greatest fresh merge values) := by
  intro depth reader other hreaders
  rw [Delimited.append_eq, Delimited.append_eq]
  refine simulation.alike_behindLength hreaders fun {length} behind behind' hbehind hinside => ?_
  split
  · exact ⟨rfl, hbehind, rfl, .some (.same _ rfl)⟩
  · split
    · exact ⟨rfl, hbehind, rfl, .some (.same _ rfl)⟩
    · have helement := simulation.alike_mergeSpan h hinside
      simp only [helement.isNone_error]
      exact helement.map _

/-- The record loop, as long as its steps are bounded by more than the bytes that are left on either side. -/
theorem alike_mergeRecords {step : Tag → α → Reader → Merged α}
    (hmoves : ∀ tag value, Merged.Moves (step tag value))
    (h : ∀ tag value, Merged.Follows R E (step tag value)) {fuel fuel' : Nat} (value : α)
    {depth : Nat} {reader other : Reader} (hreaders : R depth reader other)
    (hfuel : reader.unread < fuel) (hfuel' : other.unread < fuel') :
    Merged.Alike (R depth) E (Delimited.mergeRecords step fuel value reader)
      (Delimited.mergeRecords step fuel' value other) := by
  induction fuel generalizing fuel' value reader other with
  | zero => omega
  | succ fuel ih =>
    obtain ⟨fuel', rfl⟩ : ∃ more, fuel' = more + 1 := ⟨fuel' - 1, by omega⟩
    obtain ⟨htag, hbehind⟩ := simulation.alike_readTag hreaders
    rw [Delimited.mergeRecords, Delimited.mergeRecords]
    cases hread : Tag.read reader with
    | mk found behind =>
      cases hread' : Tag.read other with
      | mk found' behind' =>
        rw [hread, hread'] at htag hbehind
        simp only at htag hbehind
        subst htag
        cases found with
        | none => exact ⟨rfl, hbehind, rfl, .none⟩
        | some tag =>
          -- on each side the tag took a byte and the record gave none back
          have hlt := Tag.unread_lt_of_read hread
          have hlt' := Tag.unread_lt_of_read hread'
          have hle := (hmoves tag value behind).unread_le
          have hle' := (hmoves tag value behind').unread_le
          have hstep := h tag value hbehind
          exact hstep.andThen (ih _ hstep.reader (by omega) (by omega))

end Reader.Simulation

end EngineConsole
