import EngineConsole.Number.Single
import EngineConsole.Proofs.Bytes.Requests
import EngineConsole.Record.Tag

/-!
# Refused requests

A run is told by its requests, refused ones included. A refused request is heeded if it is the last one and its failure is that of the run, or if it was for a byte of a tag in a message inside, which ends there: the requests behind it then skip what is left of the span of that message. Runs in which every refusal is heeded can be put one behind the other, and every reading of numbers and bytes is such a run, in which a refusal is always the last request.
-/

namespace EngineConsole

/-! ### The requests of a run -/

namespace Source

variable {heads heads' : List Reader} {depth depth' : Nat} {source : Source}
  {failed failed' : TransferError → Prop}

/-- The request for `count` bytes behind the `earlier` ones has ended a message inside more than `depth` spans: it was the last one of an attempt to read a tag at one of the `heads`, no tag was read, and the `later` requests begin with those that skip what was left of the innermost span. -/
def EndsMessage (heads : List Reader) (depth : Nat) (source : Source) (earlier : List Nat)
    (count : Nat) (later : List Nat) : Prop :=
  ∃ head ∈ heads, depth < head.spans.length ∧ (Tag.read head).1 = none ∧
    (Tag.read head).2.source = source.askAll (earlier ++ [count]) ∧
    ∃ skipped, skipped <+: later ∧
      (Read.after Reader.skipSpan (Tag.read head).2).source =
        source.askAll (earlier ++ count :: skipped)

theorem endsMessage_of_read {head after : Reader} {earlier skipped : List Nat} {count : Nat}
    (hhead : head ∈ heads) (hinside : depth < head.spans.length)
    (hread : Tag.read head = (none, after))
    (hafter : after.source = source.askAll (earlier ++ [count]))
    (hskip : (Read.after Reader.skipSpan after).source = after.source.askAll skipped) :
    source.EndsMessage heads depth earlier count skipped := by
  refine ⟨head, hhead, hinside, by rw [hread], by rw [hread, hafter], skipped,
    List.prefix_refl skipped, ?_⟩
  rw [hread, hskip, hafter, ← askAll_append, List.append_assoc, List.singleton_append]

theorem EndsMessage.mono {earlier later later' : List Nat} {count : Nat}
    (h : source.EndsMessage heads depth earlier count later) (hheads : heads ⊆ heads')
    (hdepth : depth' ≤ depth) (hlater : later <+: later') :
    source.EndsMessage heads' depth' earlier count later' := by
  obtain ⟨head, hhead, hinside, hnone, hread, skipped, hskipped, hskip⟩ := h
  exact ⟨head, hheads hhead, Nat.lt_of_le_of_lt hdepth hinside, hnone, hread, skipped,
    hskipped.trans hlater, hskip⟩

theorem EndsMessage.behind {first earlier later : List Nat} {count : Nat}
    (h : (source.askAll first).EndsMessage heads depth earlier count later) :
    source.EndsMessage heads depth (first ++ earlier) count later := by
  obtain ⟨head, hhead, hinside, hnone, hread, skipped, hskipped, hskip⟩ := h
  refine ⟨head, hhead, hinside, hnone, ?_, skipped, hskipped, ?_⟩
  · rw [List.append_assoc, askAll_append, hread]
  · rw [List.append_assoc, askAll_append, hskip]

/-- Each refused request among `counts` is the last one and has `failed` the run with its failure, or it has ended a message inside. -/
def Heeded (heads : List Reader) (depth : Nat) (source : Source) (counts : List Nat)
    (failed : TransferError → Prop) : Prop :=
  ∀ earlier count later failure, counts = earlier ++ count :: later →
    (source.askAll earlier).refusal count = some failure →
    later = [] ∧ failed failure ∨ source.EndsMessage heads depth earlier count later

theorem heeded_nil : source.Heeded heads depth [] failed := by
  intro earlier count later failure h
  exact absurd h.symm (List.append_ne_nil_of_right_ne_nil earlier (List.cons_ne_nil count later))

theorem heeded_singleton {count : Nat}
    (h : ∀ failure, source.refusal count = some failure → failed failure) :
    source.Heeded heads depth [count] failed := by
  intro earlier last later failure hcounts hrefusal
  cases earlier with
  | nil =>
    obtain ⟨rfl, rfl⟩ := List.cons.inj hcounts
    exact .inl ⟨rfl, h failure hrefusal⟩
  | cons first earlier =>
    have hnil := (List.cons.inj hcounts).2.symm
    exact absurd hnil (List.append_ne_nil_of_right_ne_nil earlier (List.cons_ne_nil last later))

theorem Heeded.mono {counts : List Nat} (h : source.Heeded heads depth counts failed)
    (hheads : heads ⊆ heads') (hdepth : depth' ≤ depth)
    (hfailed : ∀ failure, failed failure → failed' failure) :
    source.Heeded heads' depth' counts failed' := by
  intro earlier count later failure hcounts hrefusal
  rcases h earlier count later failure hcounts hrefusal with ⟨hlast, hfailure⟩ | hends
  · exact .inl ⟨hlast, hfailed failure hfailure⟩
  · exact .inr (hends.mono hheads hdepth (List.prefix_refl later))

/-- Requests go on behind the first ones only if these were served, apart from a refusal that has ended a message. -/
theorem Heeded.append {first second : List Nat} (hfirst : source.Heeded heads depth first failed)
    (hsecond : (source.askAll first).Heeded heads' depth second failed')
    (hgoes : ∀ earlier count failure, first = earlier ++ [count] → failed failure →
      source.EndsMessage (heads ++ heads') depth earlier count second) :
    source.Heeded (heads ++ heads') depth (first ++ second) failed' := by
  intro earlier count later failure hcounts hrefusal
  rcases List.append_eq_append_iff.mp hcounts with ⟨middle, rfl, hmiddle⟩ | ⟨middle, hmiddle, hrest⟩
  · -- the request is one of the second ones
    rw [askAll_append] at hrefusal
    rcases hsecond middle count later failure hmiddle hrefusal with hlast | hends
    · exact .inl hlast
    · exact .inr (hends.behind.mono (List.subset_append_right heads heads') (Nat.le_refl depth)
        (List.prefix_refl later))
  · cases middle with
    | nil =>
      rw [List.append_nil] at hmiddle
      subst hmiddle
      rcases hsecond [] count later failure hrest.symm hrefusal with hlast | hends
      · exact .inl hlast
      · have hbehind := hends.behind
        rw [List.append_nil] at hbehind
        exact .inr (hbehind.mono (List.subset_append_right heads heads') (Nat.le_refl depth)
          (List.prefix_refl later))
    | cons last middle =>
      obtain ⟨rfl, rfl⟩ := List.cons.inj hrest
      rcases hfirst earlier count middle failure hmiddle hrefusal with ⟨rfl, hfailure⟩ | hends
      · exact .inr (hgoes earlier count failure hmiddle hfailure)
      · exact .inr (hends.mono (List.subset_append_left heads heads') (Nat.le_refl depth)
          (List.prefix_append middle second))

end Source

namespace Reader

variable {heads heads' : List Reader} {depth depth' : Nat} {failed failed' : TransferError → Prop}

/-- The source has been asked for something on the way from `before` to `after`, and each refusal has been heeded. -/
def Heeds (heads : List Reader) (depth : Nat) (before after : Reader)
    (failed : TransferError → Prop) : Prop :=
  ∃ counts, after.source = before.source.askAll counts ∧
    before.source.Heeded heads depth counts failed

theorem Heeds.refl (reader : Reader) : Heeds heads depth reader reader failed :=
  ⟨[], rfl, Source.heeded_nil⟩

theorem Heeds.mono {before after : Reader} (h : Heeds heads depth before after failed)
    (hheads : heads ⊆ heads') (hdepth : depth' ≤ depth)
    (hfailed : ∀ failure, failed failure → failed' failure) :
    Heeds heads' depth' before after failed' := by
  obtain ⟨counts, hsource, hheeded⟩ := h
  exact ⟨counts, hsource, hheeded.mono hheads hdepth hfailed⟩

theorem Heeds.imp {before after : Reader} (h : Heeds heads depth before after failed)
    (hfailed : ∀ failure, failed failure → failed' failure) :
    Heeds heads depth before after failed' :=
  h.mono (List.Subset.refl heads) (Nat.le_refl depth) hfailed

theorem Heeds.of_nil {before after : Reader} (h : Heeds [] depth before after failed) :
    Heeds heads depth' before after failed := by
  obtain ⟨counts, hsource, hheeded⟩ := h
  refine ⟨counts, hsource, fun earlier count later failure hcounts hrefusal => .inl ?_⟩
  rcases hheeded earlier count later failure hcounts hrefusal with hlast | ⟨head, hhead, -⟩
  · exact hlast
  · contradiction

theorem Heeds.trans {first second third : Reader} (h : Heeds heads depth first second failed)
    (hserved : ∀ failure, ¬ failed failure) (h' : Heeds heads' depth second third failed') :
    Heeds (heads ++ heads') depth first third failed' := by
  obtain ⟨counts, hsource, hheeded⟩ := h
  obtain ⟨counts', hsource', hheeded'⟩ := h'
  rw [hsource] at hsource' hheeded'
  refine ⟨counts ++ counts', by rw [hsource', Source.askAll_append], hheeded.append hheeded' ?_⟩
  exact fun _ _ failure _ hfailure => absurd hfailure (hserved failure)

/-- A message inside a span is a message below one span more. -/
theorem Heeds.leave {before after : Reader} {length : Nat}
    (h : Heeds heads (depth + 1) (before.enter length) after failed) :
    Heeds heads depth before after.leave failed :=
  h.mono (List.Subset.refl heads) (Nat.le_succ depth) fun _ hfailure => hfailure

end Reader

/-! ### Reads -/

namespace Read

variable {α β : Type}

/-- The computation heeds every refusal: it fails with it and requests nothing else. -/
def Heeds (op : Read α) : Prop :=
  ∀ depth reader, Reader.Heeds [] depth reader (op.after reader) fun failure =>
    op reader = .error failure (op.after reader)

theorem heeds_pure (value : α) : Heeds (pure value) := fun _ reader => .refl reader

theorem heeds_throw (failure : TransferError) : Heeds (throw failure : Read α) :=
  fun _ reader => .refl reader

theorem Heeds.of_ok {op : Read α} (h : Heeds op) {depth : Nat} {reader middle : Reader} {value : α}
    (hop : op reader = .ok value middle) : Reader.Heeds [] depth reader middle fun _ => False := by
  have hheeds := h depth reader
  rw [Read.after, hop] at hheeds
  exact hheeds.imp fun _ hfailure => by contradiction

theorem Heeds.of_error {op : Read α} (h : Heeds op) {depth : Nat} {reader middle : Reader}
    {error : TransferError} (hop : op reader = .error error middle) :
    Reader.Heeds [] depth reader middle fun failure => error = failure := by
  have hheeds := h depth reader
  rw [Read.after, hop] at hheeds
  exact hheeds.imp fun failure hfailure => by
    injection hfailure

theorem Heeds.bind {op : Read α} {next : α → Read β} (h : Heeds op)
    (hnext : ∀ value, Heeds (next value)) : Heeds (op >>= next) := by
  intro depth reader
  rw [after_bind]
  simp only [Bind.bind, EStateM.bind]
  cases hop : op reader with
  | ok value middle => exact (h.of_ok hop).trans (fun _ => id) (hnext value depth middle)
  | error error middle =>
    exact (h.of_error hop).imp fun _ hfailure => by
      rw [hfailure]

end Read

namespace Reader

/-- A request that a span refuses does not reach the source. One that the source refuses fails with its failure. -/
theorem read_heeds (count : Nat) : Read.Heeds (read count) := by
  intro depth reader
  unfold Read.after read
  cases hspan : reader.spans.find? (· < count) with
  | some left => exact .refl reader
  | none =>
    have hasked : Source.ask reader.source count = reader.source.askAll [count] := rfl
    unfold Source.ask at hasked
    unfold Source.read at hasked ⊢
    cases hrefusal : reader.source.refusal count with
    | some error =>
      rw [hrefusal] at hasked
      refine ⟨[count], hasked, Source.heeded_singleton fun failure hfailure => ?_⟩
      rw [hrefusal] at hfailure
      cases hfailure
      rfl
    | none =>
      rw [hrefusal] at hasked
      refine ⟨[count], hasked, Source.heeded_singleton fun failure hfailure => ?_⟩
      rw [hrefusal] at hfailure
      contradiction

theorem readByte_heeds : Read.Heeds readByte :=
  (read_heeds 1).bind fun bytes => Read.heeds_pure (bytes.headD 0)

theorem skipBytes_heeds (fuel left : Nat) : Read.Heeds (skipBytes fuel left) := by
  induction fuel generalizing left with
  | zero => exact Read.heeds_pure ()
  | succ fuel ih =>
    rw [skipBytes]
    split
    · exact Read.heeds_pure ()
    · exact (read_heeds _).bind fun _ => ih _

theorem skipSpan_heeds : Read.Heeds skipSpan := fun depth reader =>
  skipBytes_heeds reader.spanLeft reader.spanLeft depth reader

end Reader

namespace Varint

theorem readGroups_heeds (groups : Nat) : Read.Heeds (readGroups groups) := by
  induction groups with
  | zero => exact Read.heeds_throw .overlongVarint
  | succ groups ih =>
    refine Reader.readByte_heeds.bind fun byte => ?_
    split
    · exact Read.heeds_pure _
    · exact ih.bind fun high => Read.heeds_pure _

theorem read_heeds : Read.Heeds read := (readGroups_heeds maxSize).bind fun _ => Read.heeds_pure _

theorem readFlag_heeds : Read.Heeds readFlag := read_heeds.bind fun _ => Read.heeds_pure _

theorem readLength_heeds : Read.Heeds readLength := read_heeds.bind fun _ => Read.heeds_pure _

end Varint

theorem Fixed32.read_heeds : Read.Heeds read :=
  (Reader.read_heeds size).bind fun _ => Read.heeds_pure _

theorem Single.read_heeds : Read.Heeds read := Fixed32.read_heeds.bind fun _ => Read.heeds_pure _

theorem Tag.read_heeds (depth : Nat) (reader : Reader) :
    Reader.Heeds [] depth reader (read reader).2 fun _ => (read reader).1 = none := by
  rw [read]
  cases hread : Varint.read reader with
  | ok value after =>
    exact (Varint.read_heeds.of_ok hread).imp fun _ => False.elim
  | error error after =>
    exact (Varint.read_heeds.of_error hread).imp fun _ _ => rfl

end EngineConsole
