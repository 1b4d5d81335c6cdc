import EngineConsole.Proofs.Record.Span

/-!
# Success is repeatable

A read or a merge that succeeds depends on the bytes that it took and on nothing else. Wherever the same bytes are offered it succeeds again, with the same value and the same notices, whatever comes behind them. For a number this is seen from its requests; a span is repeatable because nothing beyond it can be seen from inside; and a sequence of records is repeatable because each of them is.

A source that refuses at will is left out: inside a span its refusal of a tag looks like the end of a message, and the merge goes on to succeed.
-/

namespace EngineConsole

/-! ### Bytes that were delivered -/

namespace Reader

/-- The reader has moved on to `after`, and it was `data` that it delivered meanwhile. -/
structure Delivered (reader : Reader) (data : Bytes) (after : Reader) : Prop where
  next : data <+: reader.source.rest
  advanced : reader.Advanced data.length after

variable {reader middle after : Reader} {data more : Bytes}

theorem Delivered.refl (reader : Reader) : reader.Delivered [] reader := ⟨List.nil_prefix, .refl reader⟩

theorem Delivered.trans (h : reader.Delivered data middle) (hmore : middle.Delivered more after) :
    reader.Delivered (data ++ more) after := by
  obtain ⟨rest, hrest⟩ := h.next
  have hnext := hmore.next
  rw [h.advanced.rest, ← hrest, List.drop_left] at hnext
  constructor
  case next =>
    rw [← hrest]
    exact (List.prefix_append_right_inj data).mpr hnext
  case advanced =>
    rw [List.length_append]
    exact h.advanced.trans hmore.advanced

theorem Advanced.delivered {count : Nat} (h : reader.Advanced count after) :
    reader.Delivered (reader.source.rest.take count) after := by
  refine ⟨List.take_prefix count _, ?_⟩
  rwa [List.length_take_of_le h.held]

theorem Delivered.offers (h : reader.Delivered data after)
    (hwilling : reader.source.supply.Willing) : reader.Offers data :=
  ⟨hwilling, h.next, h.advanced.allowed⟩

theorem Delivered.view {rest : Bytes} (h : (ofBytes (data ++ rest)).Delivered data after) :
    View [] rest after :=
  ⟨[], h.advanced.spans, .all h.advanced.supply (h.advanced.rest.trans List.drop_left)⟩

end Reader

/-! ### Reads -/

namespace Read

variable {α β : Type}

/-- Whenever the computation succeeds, it has taken bytes from which it yields the same value anywhere. -/
def Repeatable (op : Read α) : Prop :=
  ∀ ⦃reader after : Reader⦄ ⦃value : α⦄, op reader = .ok value after →
    ∃ data, reader.Delivered data after ∧ Yields op data value

theorem repeatable_pure (value : α) : Repeatable (pure value) := by
  intro reader after result h
  cases h
  exact ⟨[], .refl reader, yields_pure value⟩

theorem repeatable_throw (error : TransferError) : Repeatable (throw error : Read α) := by
  intro reader after value h
  cases h

theorem Repeatable.bind {op : Read α} {next : α → Read β} (h : Repeatable op)
    (hnext : ∀ value, Repeatable (next value)) : Repeatable (op >>= next) := by
  intro reader after result hresult
  simp only [Bind.bind, EStateM.bind] at hresult
  cases hop : op reader with
  | error error middle =>
    rw [hop] at hresult
    cases hresult
  | ok value middle =>
    rw [hop] at hresult
    obtain ⟨data, hdata, hyields⟩ := h hop
    obtain ⟨more, hmore, hyieldsMore⟩ := hnext value hresult
    exact ⟨data ++ more, hdata.trans hmore, hyields.bind hyieldsMore⟩

end Read

theorem Reader.repeatable_read (count : Nat) : Read.Repeatable (read count) := by
  intro reader after bytes h
  obtain ⟨rfl, hadvanced⟩ := advanced_of_read h
  have hyields := Read.yields_read (reader.source.rest.take count)
  rw [List.length_take_of_le hadvanced.held] at hyields
  exact ⟨_, hadvanced.delivered, hyields⟩

theorem Reader.repeatable_readByte : Read.Repeatable readByte :=
  (repeatable_read 1).bind fun bytes => Read.repeatable_pure (bytes.headD 0)

namespace Varint

theorem repeatable_readGroups (groups : Nat) : Read.Repeatable (readGroups groups) := by
  induction groups with
  | zero => exact Read.repeatable_throw _
  | succ groups ih =>
    refine Reader.repeatable_readByte.bind fun byte => ?_
    split
    · exact Read.repeatable_pure _
    · exact ih.bind fun high => Read.repeatable_pure _

theorem repeatable_read : Read.Repeatable read :=
  (repeatable_readGroups maxSize).bind fun _ => Read.repeatable_pure _

theorem repeatable_readFlag : Read.Repeatable readFlag :=
  repeatable_read.bind fun _ => Read.repeatable_pure _

theorem repeatable_readLength : Read.Repeatable readLength :=
  repeatable_read.bind fun _ => Read.repeatable_pure _

end Varint

theorem Fixed32.repeatable_read : Read.Repeatable read :=
  (Reader.repeatable_read size).bind fun _ => Read.repeatable_pure _

theorem Single.repeatable_read : Read.Repeatable read :=
  Fixed32.repeatable_read.bind fun _ => Read.repeatable_pure _

/-- A tag that was read is read again wherever its bytes are offered. -/
theorem Tag.repeatable_read {reader after : Reader} {tag : Tag} (h : read reader = (some tag, after)) :
    ∃ data, reader.Delivered data after ∧ ∀ other : Reader, other.Offers data →
      ∃ after, read other = (some tag, after) ∧ other.Advanced data.length after := by
  rw [read] at h
  cases hread : Varint.read reader with
  | error error middle =>
    rw [hread] at h
    cases h
  | ok value middle =>
    rw [hread] at h
    cases h
    obtain ⟨data, hdelivered, hyields⟩ := Varint.repeatable_read hread
    refine ⟨data, hdelivered, fun other hoffers => ?_⟩
    obtain ⟨after, hother, hadvanced⟩ := hyields other hoffers
    exact ⟨after, by rw [read, hother], hadvanced⟩

/-! ### Fetches -/

namespace Fetched

variable {α : Type}

/-- Whenever the fetch succeeds, it has taken bytes from which it yields the same value anywhere. -/
def Repeatable (fetch : Reader → Fetched α) : Prop :=
  ∀ ⦃reader : Reader⦄ ⦃value : α⦄, (fetch reader).result = .ok value →
    ∃ data, reader.Delivered data (fetch reader).reader ∧ Yields fetch data value

theorem repeatable_ofRead {op : Read α} (h : Read.Repeatable op) : Repeatable (ofRead op) := by
  intro reader value hresult
  rw [ofRead] at hresult ⊢
  cases hop : op reader with
  | error error after =>
    rw [hop] at hresult
    cases hresult
  | ok found after =>
    rw [hop] at hresult
    cases hresult
    obtain ⟨data, hdelivered, hyields⟩ := h hop
    exact ⟨data, hdelivered, yields_ofRead hyields⟩

end Fetched

theorem Scalar.repeatable_fetch {α : Type} (scalar : Scalar α) (number : Nat) :
    Fetched.Repeatable (scalar.fetch number) := by
  cases scalar with
  | uint32 => exact Fetched.repeatable_ofRead Varint.repeatable_read
  | fixed32 => exact Fetched.repeatable_ofRead Fixed32.repeatable_read
  | float => exact Fetched.repeatable_ofRead Single.repeatable_read
  | bool => exact Fetched.repeatable_ofRead Varint.repeatable_readFlag
  | enum enumeration =>
    intro reader variant h
    rw [fetch, recognize] at h ⊢
    cases hfetched : (Fetched.ofRead Varint.read reader).result with
    | error error =>
      rw [hfetched] at h
      cases h
    | ok value =>
      obtain ⟨data, hdelivered, hyields⟩ :=
        Fetched.repeatable_ofRead Varint.repeatable_read hfetched
      rw [hfetched] at h
      simp only at h ⊢
      split at h
      · rename_i found hfound
        cases h
        refine ⟨data, hdelivered, fun other hoffers => ?_⟩
        obtain ⟨after, hother, hadvanced⟩ := hyields other hoffers
        exact ⟨after, by simp only [fetch, recognize, hother, hfound], hadvanced⟩
      · cases h

theorem Text.repeatable_fetch (number capacity : Nat) :
    Fetched.Repeatable (fetch number capacity) := by
  intro reader text h
  rw [fetch] at h ⊢
  cases hlength : Varint.readLength reader with
  | error error middle =>
    rw [hlength] at h
    cases h
  | ok length middle =>
    obtain ⟨front, hfront, hyieldsFront⟩ := Varint.repeatable_readLength hlength
    rw [hlength] at h
    simp only at h ⊢
    split at h
    · cases h
    · rename_i hfits
      rw [if_neg hfits]
      rw [interpret, Fetched.ofRead] at h ⊢
      cases hread : Reader.read length middle with
      | error error after =>
        rw [hread] at h
        cases h
      | ok bytes after =>
        obtain ⟨data, hdata, hyields⟩ := Reader.repeatable_read length hread
        rw [hread] at h
        simp only at h ⊢
        split at h
        · rename_i found hfound
          cases h
          refine ⟨front ++ data, hfront.trans hdata, fun other hoffers => ?_⟩
          obtain ⟨middle', hlength', hmiddle'⟩ := hyieldsFront other hoffers.of_append_left
          obtain ⟨after', hread', hafter'⟩ := hyields middle' (hoffers.advance hmiddle')
          refine ⟨after', ?_, ?_⟩
          · simp only [fetch, hlength', if_neg hfits, interpret, Fetched.ofRead, hread', hfound]
          · rw [List.length_append]
            exact hmiddle'.trans hafter'
        · cases h

/-! ### Merges -/

namespace Merged

variable {α β : Type}

/-- Any reader that offers `data` brings the merge to the same outcome, and the merge takes exactly these bytes. -/
def Repeats (merge : Reader → Merged α) (data : Bytes) (merged : Merged α) : Prop :=
  ∀ reader : Reader, reader.Offers data →
    ∃ after, merge reader = { merged with reader := after } ∧ reader.Advanced data.length after

/-- Whenever the merge succeeds, it has taken bytes that bring it to the same outcome anywhere. -/
def Repeatable (merge : Reader → Merged α) : Prop :=
  ∀ ⦃reader : Reader⦄, reader.source.supply.Willing → (merge reader).error = none →
    ∃ data, reader.Delivered data (merge reader).reader ∧ Repeats merge data (merge reader)

theorem Alike.eq_with_reader {Q : Reader → Reader → Prop} {first second : Merged α}
    (h : Alike Q TransferError.Same first second) :
    second = { first with reader := second.reader } := by
  obtain ⟨value, reader, notices, error⟩ := first
  obtain ⟨value', reader', notices', error'⟩ := second
  obtain rfl : value = value' := h.value
  obtain rfl : notices = notices' := h.notices
  obtain rfl : error = error' := h.error_eq
  rfl

theorem Alike.eq_of_common {Q Q' : Reader → Reader → Prop} {first second third : Merged α}
    (h : Alike Q TransferError.Same first third) (h' : Alike Q' TransferError.Same second third) :
    second = { first with reader := second.reader } := by
  have heq := h.eq_with_reader.symm.trans h'.eq_with_reader
  exact (congrArg (fun merged => { merged with reader := second.reader }) heq).symm

theorem repeatable_idle (value : α) (notices : List Notice) :
    Repeatable (fun reader => { value, reader, notices }) := fun reader _ _ =>
  ⟨[], .refl reader, fun other _ => ⟨other, rfl, .refl other⟩⟩

theorem repeatable_ite {p : Prop} [Decidable p] {first second : Reader → Merged α}
    (hfirst : p → Repeatable first) (hsecond : ¬ p → Repeatable second) :
    Repeatable (fun reader => if p then first reader else second reader) := by
  by_cases h : p
  · simpa only [if_pos h] using hfirst h
  · simpa only [if_neg h] using hsecond h

theorem Repeatable.map {merge : Reader → Merged α} (h : Repeatable merge)
    (f : Option DecodeError → α → β) :
    Repeatable (fun reader => (merge reader).map (f (merge reader).error)) := by
  intro reader hwilling hnone
  obtain ⟨data, hdelivered, hrepeats⟩ := h hwilling hnone
  refine ⟨data, hdelivered, fun other hoffers => ?_⟩
  obtain ⟨after, hother, hadvanced⟩ := hrepeats other hoffers
  exact ⟨after, by simp only [hother, Merged.map], hadvanced⟩

theorem repeatable_assign {fetch : Reader → Fetched α} (h : Fetched.Repeatable fetch) (old : β)
    (place : α → β) : Repeatable (fun reader => (fetch reader).assign old place) := by
  intro reader hwilling hnone
  cases hresult : (fetch reader).result with
  | error error => simp only [Fetched.assign, hresult, reduceCtorEq] at hnone
  | ok value =>
    obtain ⟨data, hdelivered, hyields⟩ := h hresult
    obtain ⟨after, hfetch, _⟩ := hyields reader (hdelivered.offers hwilling)
    rw [hfetch] at hdelivered
    simp only [hfetch, Fetched.assign]
    refine ⟨data, hdelivered, fun other hoffers => ?_⟩
    obtain ⟨after', hother, hadvanced⟩ := hyields other hoffers
    exact ⟨after', by simp only [hother], hadvanced⟩

theorem repeatable_of_fails {merge : Reader → Merged α} (h : ∀ reader, (merge reader).error ≠ none) :
    Repeatable merge := fun reader _ hnone => absurd hnone (h reader)

/-- A merge that reads a length and goes on according to it is repeatable if what it goes on with is. -/
theorem repeatable_of_length {merge : Reader → Merged α} (body : Nat → Reader → Merged α)
    (hbody : ∀ length, Repeatable (body length))
    (hmerge : ∀ {reader behind : Reader} {length : Nat},
      Varint.readLength reader = .ok length behind → merge reader = body length behind)
    (hfails : ∀ {reader behind : Reader} {error : TransferError},
      Varint.readLength reader = .error error behind → (merge reader).error ≠ none) :
    Repeatable merge := by
  intro reader hwilling hnone
  cases hlength : Varint.readLength reader with
  | error error behind => exact absurd hnone (hfails hlength)
  | ok length behind =>
    obtain ⟨front, hfront, hyields⟩ := Varint.repeatable_readLength hlength
    rw [hmerge hlength] at hnone ⊢
    obtain ⟨data, hdata, hrepeats⟩ := hbody length (hfront.advanced.supply ▸ hwilling) hnone
    refine ⟨front ++ data, hfront.trans hdata, fun other hoffers => ?_⟩
    obtain ⟨behind', hlength', hbehind'⟩ := hyields other hoffers.of_append_left
    obtain ⟨after, hother, hafter⟩ := hrepeats behind' (hoffers.advance hbehind')
    refine ⟨after, by rw [hmerge hlength', hother], ?_⟩
    rw [List.length_append]
    exact hbehind'.trans hafter

end Merged

/-! ### Merging inside a span -/

namespace Delimited

variable {α : Type} {merge : α → Reader → Merged α}

/-- Whatever is merged inside a span and takes all of it is repeatable, as nothing else can be seen from inside. -/
theorem repeatable_span (inside : Reader → Merged α) {length : Nat}
    (hsame : ∀ {reader other : Reader} {data : Bytes}, data.length = length →
      reader.Offers data → other.Offers data →
      (inside (other.enter length)).leaveSpan = { (inside (reader.enter length)).leaveSpan with
        reader := (inside (other.enter length)).leaveSpan.reader })
    (htakes : ∀ {reader : Reader}, (inside (reader.enter length)).error = none →
      reader.Advanced length (inside (reader.enter length)).leaveSpan.reader) :
    Merged.Repeatable (fun reader => (inside (reader.enter length)).leaveSpan) := by
  intro reader hwilling hnone
  have hadvanced := htakes hnone
  have hlength := List.length_take_of_le hadvanced.held
  have hdelivered := hadvanced.delivered
  refine ⟨_, hdelivered, fun other hoffers => ?_⟩
  have heq := hsame hlength (hdelivered.offers hwilling) hoffers
  refine ⟨_, heq, ?_⟩
  rw [hlength]
  exact htakes ((congrArg Merged.error heq).trans hnone)

theorem repeatable_mergeSpan (length : Nat) {value : α}
    (hfollows : Merged.Follows Reader.Window TransferError.Same (merge value))
    (hmoves : Merged.Moves (merge value)) :
    Merged.Repeatable (mergeSpan merge length value) := by
  refine repeatable_span (fun reader => (merge value reader).andThen skipRest) ?_
    (advanced_of_mergeSpan hmoves)
  rintro reader other data rfl hreader hother
  -- both come to what a reader of the span alone comes to
  exact (alike_mergeSpan_ofBytes hfollows hreader).eq_of_common
    (alike_mergeSpan_ofBytes hfollows hother)

theorem repeatable_merge {value : α}
    (hfollows : Merged.Follows Reader.Window TransferError.Same (merge value))
    (hmoves : Merged.Moves (merge value)) : Merged.Repeatable (Delimited.merge merge value) := by
  refine Merged.repeatable_of_length (fun length => mergeSpan merge length value)
    (fun length => repeatable_mergeSpan length hfollows hmoves) ?_ ?_
  · intro reader behind length hlength
    rw [Delimited.merge, hlength]
  · intro reader behind error hlength
    rw [Delimited.merge, hlength]
    exact Option.some_ne_none _

theorem repeatable_append (number capacity greatest : Nat) {fresh : α} (values : List α)
    (hfollows : Merged.Follows Reader.Window TransferError.Same (merge fresh))
    (hmoves : Merged.Moves (merge fresh)) :
    Merged.Repeatable (append number capacity greatest fresh merge values) := by
  refine Merged.repeatable_of_length (fun length reader =>
    if greatest < length then
      { value := values, reader
        notices := [.elementTooLong number length greatest]
        error := some (.lengthExceeded number length greatest) }
    else if capacity ≤ values.length then
      { value := values, reader
        notices := [.listFull number capacity]
        error := some (.capacityExceeded number capacity) }
    else
      (mergeSpan merge length fresh reader).map fun value =>
        if (mergeSpan merge length fresh reader).error.isNone then values ++ [value]
        else values) ?_ ?_ ?_
  · intro length
    by_cases hlength : greatest < length
    · simp only [if_pos hlength]
      exact Merged.repeatable_of_fails fun reader => Option.some_ne_none _
    · by_cases hroom : capacity ≤ values.length
      · simp only [if_neg hlength, if_pos hroom]
        exact Merged.repeatable_of_fails fun reader => Option.some_ne_none _
      · simp only [if_neg hlength, if_neg hroom]
        exact (repeatable_mergeSpan length hfollows hmoves).map fun error value =>
          if error.isNone then values ++ [value] else values
  · intro reader behind length hlength
    rw [append_eq, hlength]
  · intro reader behind error hlength
    rw [append_eq, hlength]
    exact Option.some_ne_none _

end Delimited

namespace Floats

theorem repeatable_mergeUnpacked (number capacity : Nat) (values : List Single) :
    Merged.Repeatable (mergeUnpacked number capacity values) := by
  by_cases hroom : capacity ≤ values.length
  · refine Merged.repeatable_of_fails fun reader => ?_
    rw [mergeUnpacked_eq, if_pos hroom]
    exact Option.some_ne_none _
  · have hmerge : mergeUnpacked number capacity values = fun reader =>
        (Fetched.ofRead Single.read reader).assign values fun value => values ++ [value] :=
      funext fun reader => by rw [mergeUnpacked_eq, if_neg hroom]
    rw [hmerge]
    exact Merged.repeatable_assign (Fetched.repeatable_ofRead Single.repeatable_read) values _

theorem repeatable_mergePacked (number capacity : Nat) (values : List Single) :
    Merged.Repeatable (mergePacked number capacity values) := by
  refine Merged.repeatable_of_length (fun length reader =>
    (fill number capacity length values (reader.enter length)).leaveSpan) ?_ ?_ ?_
  · intro length
    refine Delimited.repeatable_span (fill number capacity length values) ?_ ?_
    · rintro reader other data rfl hreader hother
      have hwindow : Reader.Window 0 (reader.enter data.length) (other.enter data.length) :=
        ⟨[], data, rfl, hreader.view, hother.view⟩
      have hfill := Reader.Simulation.window.alike_fill number capacity data.length values hwindow rfl
      rw [Merged.leaveSpan, hfill.eq_with_reader]
      rfl
    · intro reader hnone
      have hreaches := moves_fill number capacity length values (reader.enter length)
      exact hreaches.advanced_leave (spanLeft_of_fill (Nat.le_refl length) hnone)
  · intro reader behind length hlength
    rw [mergePacked, hlength]
  · intro reader behind error hlength
    rw [mergePacked, hlength]
    exact Option.some_ne_none _

end Floats

end EngineConsole
