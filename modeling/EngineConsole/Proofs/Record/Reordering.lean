import EngineConsole.Proofs.Record.Repetition

/-!
# Complete records

A record is complete if its payload is all that follows the tag: one varint, four bytes, or a length and as many bytes. Which one it has to be is said by the wire type, so completeness is a matter of the bytes alone. A merge that succeeds takes exactly this payload, and so it makes no difference what the record stands next to: it can be merged alone, and a sequence of records is merged by merging one after the other.
-/

namespace EngineConsole

/-! ### Complete payloads -/

def WireType.Complete : WireType → Bytes → Prop
  | .varint, data => ∃ value after, Varint.read (.ofBytes data) = .ok value after ∧ after.unread = 0
  | .fixed32, data => data.length = Fixed32.size
  | .delimited, data =>
    ∃ length behind, Varint.readLength (.ofBytes data) = .ok length behind ∧ behind.unread = length
  | .unsupported _, _ => False

theorem Read.Repeatable.yields {α : Type} {op : Read α} (h : Read.Repeatable op) {data : Bytes}
    {value : α} {after : Reader} (hop : op (.ofBytes data) = .ok value after)
    (hafter : after.unread = 0) : Read.Yields op data value := by
  obtain ⟨taken, hdelivered, hyields⟩ := h hop
  have hunread : after.unread + taken.length = data.length := hdelivered.advanced.unread
  have hlength : taken.length = data.length := by omega
  obtain rfl : taken = data := hdelivered.next.eq_of_length hlength
  exact hyields

theorem WireType.Complete.split {data : Bytes} (h : WireType.delimited.Complete data) :
    ∃ front content, data = front ++ content ∧
      Read.Yields Varint.readLength front content.length := by
  obtain ⟨length, behind, hread, hbehind⟩ := h
  obtain ⟨front, hdelivered, hyields⟩ := Varint.repeatable_readLength hread
  obtain ⟨content, rfl⟩ := hdelivered.next
  have hunread : behind.unread + front.length = (front ++ content).length :=
    hdelivered.advanced.unread
  rw [List.length_append] at hunread
  obtain rfl : length = content.length := by omega
  exact ⟨front, content, rfl, hyields⟩

/-! ### A success takes the payload as a whole -/

namespace Fetched

variable {α : Type}

/-- From wherever a complete payload is offered, the fetch takes all of it. -/
def TakesPayload (wireType : WireType) (fetch : Reader → Fetched α) : Prop :=
  ∀ ⦃reader : Reader⦄ ⦃data : Bytes⦄, wireType.Complete data → reader.Offers data →
    reader.Advanced data.length (fetch reader).reader

theorem takesPayload_ofRead {wireType : WireType} {op : Read α}
    (h : ∀ {data}, wireType.Complete data → ∃ value, Read.Yields op data value) :
    TakesPayload wireType (ofRead op) := by
  intro reader data hcomplete hoffers
  obtain ⟨value, hyields⟩ := h hcomplete
  obtain ⟨after, hop, hadvanced⟩ := hyields reader hoffers
  rwa [ofRead, hop]

end Fetched

theorem Varint.yields_of_complete {data : Bytes} (h : WireType.varint.Complete data) :
    ∃ value, Read.Yields read data value := by
  obtain ⟨value, after, hread, hafter⟩ := h
  exact ⟨value, repeatable_read.yields hread hafter⟩

theorem Fixed32.yields_of_complete {data : Bytes} (h : WireType.fixed32.Complete data) :
    ∃ value, Read.Yields read data value := by
  have hread := Read.yields_read data
  rw [WireType.Complete] at h
  rw [h] at hread
  exact ⟨_, hread.map⟩

theorem Scalar.takesPayload_fetch {α : Type} (scalar : Scalar α) (number : Nat) :
    Fetched.TakesPayload scalar.wireType (scalar.fetch number) := by
  cases scalar with
  | uint32 => exact Fetched.takesPayload_ofRead Varint.yields_of_complete
  | fixed32 => exact Fetched.takesPayload_ofRead Fixed32.yields_of_complete
  | float =>
    apply Fetched.takesPayload_ofRead
    intro data hcomplete
    obtain ⟨bits, hyields⟩ := Fixed32.yields_of_complete hcomplete
    exact ⟨_, hyields.map⟩
  | bool =>
    apply Fetched.takesPayload_ofRead
    intro data hcomplete
    obtain ⟨value, hyields⟩ := Varint.yields_of_complete hcomplete
    exact ⟨_, hyields.map⟩
  | enum enumeration =>
    intro reader data hcomplete hoffers
    have hread := Fetched.takesPayload_ofRead Varint.yields_of_complete hcomplete hoffers
    rw [fetch, recognize]
    split
    · exact hread
    · split
      · exact hread
      · exact hread

namespace Merged

variable {α β : Type}

/-- From wherever a complete payload is offered, the merge takes all of it unless it fails. -/
def TakesPayload (wireType : WireType) (merge : Reader → Merged α) : Prop :=
  ∀ ⦃reader : Reader⦄ ⦃data : Bytes⦄, wireType.Complete data → reader.Offers data →
    (merge reader).error = none → reader.Advanced data.length (merge reader).reader

theorem takesPayload_assign {wireType : WireType} {fetch : Reader → Fetched α}
    (h : Fetched.TakesPayload wireType fetch) (old : β) (place : α → β) :
    TakesPayload wireType (fun reader => (fetch reader).assign old place) := by
  intro reader data hcomplete hoffers _
  have hfetch := h hcomplete hoffers
  simp only [Fetched.assign]
  split
  · exact hfetch
  · exact hfetch

theorem TakesPayload.map {wireType : WireType} {merge : Reader → Merged α}
    (h : TakesPayload wireType merge) (f : Option DecodeError → α → β) :
    TakesPayload wireType (fun reader => (merge reader).map (f (merge reader).error)) :=
  fun _ _ hcomplete hoffers hnone => h hcomplete hoffers hnone

theorem takesPayload_ite {wireType : WireType} {p : Prop} [Decidable p]
    {first second : Reader → Merged α} (hfirst : p → TakesPayload wireType first)
    (hsecond : ¬ p → TakesPayload wireType second) :
    TakesPayload wireType (fun reader => if p then first reader else second reader) := by
  by_cases h : p
  · simpa only [if_pos h] using hfirst h
  · simpa only [if_neg h] using hsecond h

theorem takesPayload_of_length {merge : Reader → Merged α}
    (h : ∀ {reader behind : Reader} {length : Nat}, Varint.readLength reader = .ok length behind →
      (merge reader).error = none → behind.Advanced length (merge reader).reader) :
    TakesPayload .delimited merge := by
  intro reader data hcomplete hoffers hnone
  obtain ⟨front, content, rfl, hyields⟩ := hcomplete.split
  obtain ⟨behind, hread, hbehind⟩ := hyields reader hoffers.of_append_left
  rw [List.length_append]
  exact hbehind.trans (h hread hnone)

end Merged

theorem Text.takesPayload_fetch {β : Type} (number capacity : Nat) (old : β) (place : String → β) :
    Merged.TakesPayload .delimited
      (fun reader => (fetch number capacity reader).assign old place) := by
  apply Merged.takesPayload_of_length
  intro reader behind length hlength hnone
  rw [fetch, hlength] at hnone ⊢
  simp only at hnone ⊢
  split at hnone
  · cases hnone
  · rename_i hfits
    rw [if_neg hfits]
    rw [interpret, Fetched.ofRead] at hnone ⊢
    cases hread : Reader.read length behind with
    | error error after =>
      rw [hread] at hnone
      cases hnone
    | ok bytes after =>
      have hadvanced := (Reader.advanced_of_read hread).2
      rw [hread] at hnone
      simp only at hnone ⊢
      split
      · exact hadvanced
      · exact hadvanced

namespace Floats

theorem takesPayload_mergeUnpacked (number capacity : Nat) (values : List Single) :
    Merged.TakesPayload .fixed32 (mergeUnpacked number capacity values) := by
  intro reader data hcomplete hoffers hnone
  rw [mergeUnpacked_eq] at hnone ⊢
  split at hnone
  · cases hnone
  · rename_i hroom
    rw [if_neg hroom]
    exact Merged.takesPayload_assign (Scalar.takesPayload_fetch .float number) values _ hcomplete
      hoffers hnone

theorem takesPayload_mergePacked (number capacity : Nat) (values : List Single) :
    Merged.TakesPayload .delimited (mergePacked number capacity values) := by
  apply Merged.takesPayload_of_length
  intro reader behind length hlength hnone
  rw [mergePacked, hlength] at hnone ⊢
  have hreaches := moves_fill number capacity length values (behind.enter length)
  exact hreaches.advanced_leave (spanLeft_of_fill (Nat.le_refl length) hnone)

end Floats

namespace Delimited

variable {α : Type} {merge : α → Reader → Merged α}

theorem takesPayload_merge {value : α} (hmoves : Merged.Moves (merge value)) :
    Merged.TakesPayload .delimited (Delimited.merge merge value) := by
  apply Merged.takesPayload_of_length
  intro reader behind length hlength hnone
  rw [Delimited.merge, hlength] at hnone ⊢
  exact advanced_of_mergeSpan hmoves hnone

theorem takesPayload_append (number capacity greatest : Nat) {fresh : α} (values : List α)
    (hmoves : Merged.Moves (merge fresh)) :
    Merged.TakesPayload .delimited (append number capacity greatest fresh merge values) := by
  apply Merged.takesPayload_of_length
  intro reader behind length hlength hnone
  rw [append_eq, hlength] at hnone ⊢
  simp only at hnone ⊢
  split at hnone
  · cases hnone
  · rename_i hgreatest
    rw [if_neg hgreatest]
    split at hnone
    · cases hnone
    · rename_i hroom
      rw [if_neg hroom]
      exact advanced_of_mergeSpan hmoves hnone

end Delimited

/-! ### Records that are merged alone -/

/-- The value that a merge arrives at, if it succeeds and leaves no byte. -/
def Merged.whole? {α : Type} (merged : Merged α) : Option α :=
  if merged.error.isNone ∧ merged.reader.unread = 0 then some merged.value else none

theorem Merged.whole?_map {α β : Type} (merged : Merged α) (f : α → β) :
    (merged.map f).whole? = merged.whole?.map f := by
  rw [whole?, whole?, apply_ite (Option.map f)]
  rfl

namespace Delimited

variable {α : Type} {step : Tag → α → Reader → Merged α}

/-- What a record makes of a value when it is merged alone, if that succeeds and leaves no byte. -/
def mergeAlone? (step : Tag → α → Reader → Merged α) (value : α) (record : Bytes) : Option α :=
  match Tag.read (.ofBytes record) with
  | (none, _) => none
  | (some tag, behindTag) => (step tag value behindTag).whole?

theorem mergeAlone?_eq_some {value next : α} {record : Bytes}
    (h : mergeAlone? step value record = some next) :
    ∃ tag behindTag, Tag.read (.ofBytes record) = (some tag, behindTag) ∧
      (step tag value behindTag).error = none ∧ (step tag value behindTag).reader.unread = 0 ∧
      (step tag value behindTag).value = next := by
  rw [mergeAlone?] at h
  split at h
  · cases h
  · rename_i tag behindTag hread
    rw [Merged.whole?, Option.ite_none_right_eq_some, Option.isNone_iff_eq_none] at h
    exact ⟨tag, behindTag, hread, h.1.1, h.1.2, Option.some.inj h.2⟩

/-- A complete record that is merged successfully where more follows is merged as well alone. -/
theorem exists_mergeAlone? {tag : Tag} {value : α} {record more : Bytes}
    {behindTag behindTag' : Reader} (hrepeatable : Merged.Repeatable (step tag value))
    (htakes : Merged.TakesPayload tag.wireType (step tag value))
    (head : Tag.read (.ofBytes record) = (some tag, behindTag))
    (hcomplete : tag.wireType.Complete behindTag.source.rest)
    (head' : Tag.read (.ofBytes (record ++ more)) = (some tag, behindTag'))
    (done : (step tag value behindTag').error = none) :
    ∃ next, mergeAlone? step value record = some next := by
  -- behind the tag there is the payload, and in the longer data more behind it
  obtain ⟨front, hfront, htag⟩ := Tag.repeatable_read head
  obtain ⟨payload, rfl⟩ := hfront.next
  have hrest : behindTag.source.rest = payload := hfront.advanced.rest.trans List.drop_left
  have hoffers : behindTag.Offers payload :=
    (Reader.offers_ofBytes (front ++ payload)).advance hfront.advanced
  have hlong := Reader.offers_ofBytes (front ++ payload ++ more)
  rw [List.append_assoc] at hlong head'
  obtain ⟨other, hother, hadvanced⟩ := htag _ hlong.of_append_left
  rw [head'] at hother
  cases hother
  have hoffers' : behindTag'.Offers payload := (hlong.advance hadvanced).of_append_left
  -- the success there has taken the payload, so it is repeated here
  rw [hrest] at hcomplete
  have htaken := htakes hcomplete hoffers' done
  obtain ⟨data, hdelivered, hrepeats⟩ := hrepeatable hoffers'.willing done
  have hlength : data.length = payload.length := hdelivered.advanced.count_eq htaken
  have hprefix : data <+: payload :=
    List.prefix_of_prefix_length_le hdelivered.next hoffers'.next (Nat.le_of_eq hlength)
  obtain rfl : data = payload := hprefix.eq_of_length hlength
  obtain ⟨after, hstep, hafter⟩ := hrepeats behindTag hoffers
  refine ⟨(step tag value behindTag').value, ?_⟩
  have hunread : after.unread + data.length = behindTag.source.rest.length := hafter.unread
  rw [hrest] at hunread
  have hnone : after.unread = 0 := by omega
  rw [mergeAlone?, head]
  simp only [hstep, Merged.whole?, done, hnone, Option.isNone_none, and_self, if_true]

end Delimited

/-! ### Two components -/

/-- Where every item acts on one of two components, a sequence of items acts on both components independently. -/
theorem foldlM_pair {ι α β : Type} {accepts : ι → Bool} {both : α × β → ι → Option (α × β)}
    {left : α → ι → Option α} {right : β → ι → Option β}
    (h : ∀ value values item, both (value, values) item =
      if accepts item then (left value item).map (·, values)
      else (right values item).map (value, ·))
    (items : List ι) (value : α) (values : β) :
    items.foldlM both (value, values) =
      ((items.filter accepts).foldlM left value).bind fun value =>
        ((items.filter fun item => !accepts item).foldlM right values).map (value, ·) := by
  induction items generalizing value values with
  | nil => rfl
  | cons item items ih =>
    rw [List.foldlM_cons, h]
    by_cases haccepts : accepts item = true
    · have hother : ¬ (!accepts item) = true := by simp [haccepts]
      rw [if_pos haccepts, List.filter_cons_of_pos haccepts,
        List.filter_cons_of_neg (p := fun item => !accepts item) hother, List.foldlM_cons]
      cases left value item with
      | none => rfl
      | some next => exact ih next values
    · have hother : (!accepts item) = true := by simp [haccepts]
      rw [if_neg haccepts, List.filter_cons_of_neg haccepts,
        List.filter_cons_of_pos (p := fun item => !accepts item) hother, List.foldlM_cons]
      cases right values item with
      | none => exact (Option.bind_fun_none _).symm
      | some next => exact ih value next

end EngineConsole
