import EngineConsole.Proofs.Record.Reach
import EngineConsole.Proofs.Record.Refusal

/-!
# Merges that heed refusals

A request that the source refuses fails the fetch or the merge that made it, and nothing else is requested. The bytes of tags are the exception. A message ends where no tag can be read, whatever the reason, so a refusal ends it as the end of its bytes would. If the message stands in a span, the rest of the span is skipped next, on the same source, and if that succeeds, the merge around it goes on.
-/

namespace EngineConsole

theorem Reader.Reaches.length_spans {before after : Reader} (h : before.Reaches after) :
    after.spans.length = before.spans.length := by
  obtain ⟨count, h⟩ := h
  rw [h.spans, List.length_map]

/-! ### Fetches -/

namespace Fetched

variable {α : Type}

/-- The fetch heeds every refusal. -/
def Heeds (fetch : Reader → Fetched α) : Prop :=
  ∀ depth reader, Reader.Heeds [] depth reader (fetch reader).reader fun failure =>
    (fetch reader).result = .error (.transfer failure)

theorem heeds_ofRead {op : Read α} (h : Read.Heeds op) : Heeds (ofRead op) := by
  intro depth reader
  rw [ofRead]
  cases hop : op reader with
  | ok value after =>
    exact (h.of_ok hop).imp fun _ => False.elim
  | error error after =>
    exact (h.of_error hop).imp fun _ hfailure => by
      rw [hfailure]

end Fetched

theorem Scalar.heeds_fetch {α : Type} (scalar : Scalar α) (number : Nat) :
    Fetched.Heeds (scalar.fetch number) := by
  cases scalar with
  | uint32 => exact Fetched.heeds_ofRead Varint.read_heeds
  | fixed32 => exact Fetched.heeds_ofRead Fixed32.read_heeds
  | float => exact Fetched.heeds_ofRead Single.read_heeds
  | bool => exact Fetched.heeds_ofRead Varint.readFlag_heeds
  | enum enumeration =>
    intro depth reader
    have hread := Fetched.heeds_ofRead Varint.read_heeds depth reader
    simp only [fetch, recognize]
    split
    · rename_i error hresult
      rw [hresult] at hread
      exact hread.imp fun _ hfailure => by rw [Except.error.inj hfailure]
    · rename_i value hresult
      simp only [hresult, reduceCtorEq] at hread
      split
      · exact hread.imp fun _ => False.elim
      · exact hread.imp fun _ => False.elim

theorem Text.heeds_fetch (number capacity : Nat) : Fetched.Heeds (fetch number capacity) := by
  intro depth reader
  rw [fetch]
  cases hread : Varint.readLength reader with
  | error error middle =>
    exact (Varint.readLength_heeds.of_error hread).imp fun _ hfailure => by rw [hfailure]
  | ok length middle =>
    have hlength : Reader.Heeds [] depth reader middle fun _ => False :=
      Varint.readLength_heeds.of_ok hread
    have hbytes := Fetched.heeds_ofRead (Reader.read_heeds length) depth middle
    simp only
    split
    · exact hlength.imp fun _ => False.elim
    · refine hlength.trans (fun _ => id) ?_
      rw [interpret]
      split
      · rename_i error hresult
        rw [hresult] at hbytes
        exact hbytes.imp fun _ hfailure => by rw [Except.error.inj hfailure]
      · rename_i bytes hresult
        simp only [hresult, reduceCtorEq] at hbytes
        split
        · exact hbytes.imp fun _ => False.elim
        · exact hbytes.imp fun _ => False.elim

/-! ### Merges -/

namespace Merged

variable {α β : Type}

/-- The merge heeds every refusal. It reads its tags at the `heads`, all inside spans of its own. -/
def Heeds (heads : Reader → List Reader) (merge : Reader → Merged α) : Prop :=
  ∀ reader, Reader.Heeds (heads reader) reader.spans.length reader (merge reader).reader
    fun failure => (merge reader).error = some (.transfer failure)

/-- The merge of the records of a message heeds every refusal, or a refusal ends it without a failure: no tag was read at one of the `heads` outside of all spans of its own, and it ends there. -/
def HeedsOrEnds (heads : Reader → List Reader) (merge : Reader → Merged α) : Prop :=
  ∀ reader, Reader.Heeds (heads reader) reader.spans.length reader (merge reader).reader
    fun failure => (merge reader).error = some (.transfer failure) ∨
      (merge reader).error = none ∧ ∃ head ∈ heads reader,
        head.spans.length = reader.spans.length ∧ Tag.read head = (none, (merge reader).reader)

theorem heeds_assign {fetch : Reader → Fetched α} (h : Fetched.Heeds fetch) (old : β)
    (place : α → β) : Heeds (fun _ => []) fun reader => (fetch reader).assign old place := by
  intro reader
  have hfetch := h reader.spans.length reader
  simp only [Fetched.assign]
  split
  · rename_i value hresult
    simp only [hresult, reduceCtorEq] at hfetch
    exact hfetch.imp fun _ => False.elim
  · rename_i error hresult
    rw [hresult] at hfetch
    exact hfetch.imp fun _ hfailure => by rw [Except.error.inj hfailure]

end Merged

namespace Floats

theorem heeds_mergeUnpacked (number capacity : Nat) (values : List Single) :
    Merged.Heeds (fun _ => []) (mergeUnpacked number capacity values) := by
  intro reader
  rw [mergeUnpacked_eq]
  split
  · exact .refl reader
  · exact Merged.heeds_assign (Fetched.heeds_ofRead Single.read_heeds) values _ reader

theorem heeds_fill (number capacity fuel : Nat) (values : List Single) :
    Merged.Heeds (fun _ => []) (fill number capacity fuel values) := by
  induction fuel generalizing values with
  | zero => exact fun reader => .refl reader
  | succ fuel ih =>
    intro reader
    have hfirst := heeds_mergeUnpacked number capacity values reader
    rw [fill]
    split
    · exact .refl reader
    · cases herror : (mergeUnpacked number capacity values reader).error with
      | some error =>
        rw [Merged.andThen, herror]
        exact hfirst
      | none =>
        rw [Merged.andThen, herror]
        refine hfirst.trans (fun failure hfailure => ?_) (ih _ _).of_nil
        rw [herror] at hfailure
        contradiction

theorem heeds_mergePacked (number capacity : Nat) (values : List Single) :
    Merged.Heeds (fun _ => []) (mergePacked number capacity values) := by
  intro reader
  rw [mergePacked]
  cases hread : Varint.readLength reader with
  | error error middle =>
    exact (Varint.readLength_heeds.of_error hread).imp fun _ hfailure => by rw [hfailure]
  | ok length middle =>
    have hfill := heeds_fill number capacity length values (middle.enter length)
    exact (Varint.readLength_heeds.of_ok hread).trans (fun _ => id) hfill.of_nil.leave

end Floats

/-! ### Messages in spans -/

namespace Delimited

variable {α : Type} {heads : Reader → List Reader} {merge : α → Reader → Merged α} {value : α}

def spanHeads (inner : Reader → List Reader) (reader : Reader) : List Reader :=
  match Varint.readLength reader with
  | .error _ _ => []
  | .ok length behindLength => inner (behindLength.enter length)

def appendHeads (capacity greatest : Nat) (inner : Reader → List Reader) (values : List α)
    (reader : Reader) : List Reader :=
  match Varint.readLength reader with
  | .error _ _ => []
  | .ok length behindLength =>
    if greatest < length ∨ capacity ≤ values.length then []
    else inner (behindLength.enter length)

def recordHeads (inner : Tag → α → Reader → List Reader) (step : Tag → α → Reader → Merged α) :
    Nat → α → Reader → List Reader
  | 0, _, _ => []
  | fuel + 1, value, reader =>
    reader ::
      match Tag.read reader with
      | (none, _) => []
      | (some tag, behindTag) =>
        let merged := step tag value behindTag
        inner tag value behindTag ++
          if merged.error.isNone then recordHeads inner step fuel merged.value merged.reader else []

theorem reader_skipRest (value : α) (reader : Reader) :
    (skipRest value reader).reader = Read.after Reader.skipSpan reader := by
  rw [skipRest, Fetched.ofRead, Read.after]
  cases Reader.skipSpan reader <;> rfl

theorem heeds_skipRest (value : α) : Merged.Heeds (fun _ => []) (skipRest value) :=
  Merged.heeds_assign (Fetched.heeds_ofRead Reader.skipSpan_heeds) value _

/-- A refusal that ends the message in a span is followed by the skipping of the rest, and by nothing else before that is done. -/
theorem heeds_mergeSpan (length : Nat) (h : Merged.HeedsOrEnds heads (merge value)) :
    Merged.Heeds (fun reader => heads (reader.enter length)) (mergeSpan merge length value) := by
  intro reader
  obtain ⟨counts, hsource, hheeded⟩ := h (reader.enter length)
  rw [mergeSpan]
  generalize merge value (reader.enter length) = first at hsource hheeded ⊢
  cases herror : first.error with
  | some error =>
    rw [Merged.andThen, herror]
    refine ⟨counts, hsource, hheeded.mono (List.Subset.refl _) (Nat.le_succ _) ?_⟩
    rintro failure (hfailure | ⟨hnone, -⟩)
    · exact hfailure
    · rw [herror] at hnone
      contradiction
  | none =>
    have hrest : Reader.Heeds [] reader.spans.length first.reader
        (skipRest first.value first.reader).reader fun failure =>
          (skipRest first.value first.reader).error = some (.transfer failure) :=
      (heeds_skipRest first.value first.reader).of_nil
    obtain ⟨skipped, hskip, hskipped⟩ := hrest
    rw [hsource] at hskipped
    have hcounts : (reader.enter length).source.Heeded (heads (reader.enter length) ++ [])
        reader.spans.length (counts ++ skipped) fun failure =>
          (skipRest first.value first.reader).error = some (.transfer failure) := by
      refine (hheeded.mono (List.Subset.refl _) (Nat.le_succ _) fun _ => id).append hskipped ?_
      rintro earlier count failure rfl (hfailure | ⟨-, head, hhead, hspans, hread⟩)
      · rw [herror] at hfailure
        contradiction
      · -- the message has ended at this request, so the next ones are those that skip its span
        rw [reader_skipRest] at hskip
        have hinside : reader.spans.length < head.spans.length := by
          rw [hspans]
          exact Nat.lt_succ_self reader.spans.length
        exact Source.endsMessage_of_read (List.mem_append_left [] hhead) hinside hread hsource hskip
    rw [List.append_nil] at hcounts
    rw [Merged.andThen, herror]
    refine ⟨counts ++ skipped, ?_, hcounts⟩
    rw [Source.askAll_append]
    exact hskip.trans (by rw [hsource]; rfl)

theorem heeds_merge (h : Merged.HeedsOrEnds heads (merge value)) :
    Merged.Heeds (spanHeads heads) (Delimited.merge merge value) := by
  intro reader
  rw [spanHeads, Delimited.merge]
  cases hread : Varint.readLength reader with
  | error error middle =>
    exact (Varint.readLength_heeds.of_error hread).imp fun _ hfailure => by rw [hfailure]
  | ok length middle =>
    have hspans := (Varint.readLength_advances.reaches_of_ok hread).length_spans
    have hspan := heeds_mergeSpan length h middle
    rw [hspans] at hspan
    exact (Varint.readLength_heeds.of_ok hread).trans (fun _ => id) hspan

theorem heeds_append (number capacity greatest : Nat) (values : List α)
    (h : Merged.HeedsOrEnds heads (merge value)) :
    Merged.Heeds (appendHeads capacity greatest heads values)
      (append number capacity greatest value merge values) := by
  intro reader
  rw [appendHeads, append_eq]
  cases hread : Varint.readLength reader with
  | error error middle =>
    exact (Varint.readLength_heeds.of_error hread).imp fun _ hfailure => by rw [hfailure]
  | ok length middle =>
    have hlength : Reader.Heeds [] reader.spans.length reader middle fun _ => False :=
      Varint.readLength_heeds.of_ok hread
    have hspans := (Varint.readLength_advances.reaches_of_ok hread).length_spans
    have hspan := heeds_mergeSpan length h middle
    rw [hspans] at hspan
    simp only
    by_cases hlong : greatest < length
    · rw [if_pos hlong]
      exact hlength.of_nil.imp fun _ => False.elim
    · by_cases hfull : capacity ≤ values.length
      · rw [if_neg hlong, if_pos hfull]
        exact hlength.of_nil.imp fun _ => False.elim
      · rw [if_neg hlong, if_neg hfull, if_neg (by simp [hlong, hfull])]
        exact hlength.trans (fun _ => id) hspan

/-- A refusal ends the records where it leaves no tag, and fails them everywhere else. -/
theorem heedsOrEnds_mergeRecords {inner : Tag → α → Reader → List Reader}
    {step : Tag → α → Reader → Merged α} (hmoves : ∀ tag value, Merged.Moves (step tag value))
    (h : ∀ tag value, Merged.Heeds (inner tag value) (step tag value)) (fuel : Nat) (value : α) :
    Merged.HeedsOrEnds (recordHeads inner step fuel value) (mergeRecords step fuel value) := by
  induction fuel generalizing value with
  | zero => exact fun reader => .refl reader
  | succ fuel ih =>
    intro reader
    have htag := Tag.read_heeds reader.spans.length reader
    have hbehind := (Tag.read_moves reader).length_spans
    rw [recordHeads, mergeRecords]
    cases hread : Tag.read reader with
    | mk read behindTag =>
      rw [hread] at htag hbehind
      cases read with
      | none =>
        exact htag.of_nil.imp fun _ _ => .inr ⟨rfl, reader, List.mem_cons_self, rfl, hread⟩
      | some tag =>
        have hstep := h tag value behindTag
        rw [hbehind] at hstep
        have hrecord := htag.trans (fun _ => Option.some_ne_none tag) hstep
        simp only
        cases herror : (step tag value behindTag).error with
        | some error =>
          rw [Merged.andThen, herror]
          refine hrecord.mono ?_ (Nat.le_refl _) fun _ hfailure => .inl hfailure
          exact List.Subset.trans (List.subset_append_left _ _) (List.subset_cons_self _ _)
        | none =>
          have hmiddle := (hmoves tag value behindTag).length_spans
          have hrest := ih (step tag value behindTag).value (step tag value behindTag).reader
          rw [hmiddle, hbehind] at hrest
          rw [Merged.andThen, herror, Option.isNone_none, if_pos rfl]
          refine (hrecord.trans (fun failure hfailure => ?_) hrest).mono (List.subset_cons_self _ _)
            (Nat.le_refl _) fun _ hfailure => ?_
          · rw [herror] at hfailure
            contradiction
          · refine hfailure.imp_right ?_
            rintro ⟨hnone, head, hhead, hspans, hend⟩
            exact ⟨hnone, head, List.mem_cons_of_mem _ (List.mem_append_right _ hhead), hspans, hend⟩

end Delimited

end EngineConsole
