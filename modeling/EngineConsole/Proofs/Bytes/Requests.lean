import EngineConsole.Proofs.Bytes.Delivery

/-!
# What a source is asked for

A reader passes a request on to its source only if every open span has room for it. So as long as a span is open, the bytes that were delivered inside it and those that are requested next are never more than its length, and that holds of the refused requests as well. The main statement says so of one request; the position of the source and what is left of the span move against each other, so one sum does for all depths.
-/

namespace EngineConsole

namespace Source

def ask (source : Source) (count : Nat) : Source :=
  match read count source with
  | .ok _ after => after
  | .error _ after => after

def askAll (source : Source) (counts : List Nat) : Source := counts.foldl ask source

theorem askAll_concat (source : Source) (counts : List Nat) (count : Nat) :
    source.askAll (counts ++ [count]) = (source.askAll counts).ask count := by
  rw [askAll, List.foldl_append, List.foldl_cons, List.foldl_nil, askAll]

theorem askAll_append (source : Source) (first second : List Nat) :
    source.askAll (first ++ second) = (source.askAll first).askAll second := List.foldl_append

theorem requests_ask (source : Source) (count : Nat) :
    (source.ask count).requests = count :: source.requests := by
  rw [ask, read]
  cases source.refusal count with
  | some error => rfl
  | none => rfl

theorem requests_askAll (source : Source) (counts : List Nat) :
    (source.askAll counts).requests = counts.reverse ++ source.requests := by
  induction counts generalizing source with
  | nil => rfl
  | cons count counts ih =>
    show ((source.ask count).askAll counts).requests = _
    rw [ih, requests_ask, List.reverse_cons, List.append_assoc, List.singleton_append]

theorem supply_ask (source : Source) (count : Nat) : (source.ask count).supply = source.supply := by
  rw [ask, read]
  cases source.refusal count with
  | some error => rfl
  | none => rfl

theorem supply_askAll (source : Source) (counts : List Nat) :
    (source.askAll counts).supply = source.supply := by
  induction counts generalizing source with
  | nil => rfl
  | cons count counts ih => exact (ih (source.ask count)).trans (source.supply_ask count)

theorem refusal_askAll_ofCallback {data : Bytes} {refuses : Nat → Bool} {earlier : List Nat}
    {count : Nat} (h : refuses earlier.length = true ∨
      ((ofCallback data refuses).askAll earlier).rest.length < count) :
    ((ofCallback data refuses).askAll earlier).refusal count = some .sourceFailed := by
  have hcalls : ((ofCallback data refuses).askAll earlier).requests.length = earlier.length := by
    rw [requests_askAll, ofCallback, List.append_nil, List.length_reverse]
  have hrefused : (refuses earlier.length ||
      !((ofCallback data refuses).askAll earlier).holds count) = true := by
    rw [Bool.or_eq_true, Bool.not_eq_true', ← Bool.not_eq_true, holds_iff, Nat.not_le]
    exact h
  rw [refusal, supply_askAll, hcalls, ofCallback]
  exact if_pos hrefused

/-- None of the requests, also of the refused ones, reaches further than `length` bytes: what the requests before it have consumed and what it asks for are no more than that. -/
def StaysWithin (source : Source) (length : Nat) (counts : List Nat) : Prop :=
  ∀ earlier count, earlier ++ [count] <+: counts →
    (source.askAll earlier).position + count ≤ source.position + length

theorem staysWithin_nil (source : Source) (length : Nat) : source.StaysWithin length [] :=
  fun earlier count h => absurd (List.prefix_nil.mp h) (List.concat_ne_nil count earlier)

theorem StaysWithin.concat {source : Source} {length count : Nat} {counts : List Nat}
    (h : source.StaysWithin length counts)
    (hcount : (source.askAll counts).position + count ≤ source.position + length) :
    source.StaysWithin length (counts ++ [count]) := by
  intro earlier last hprefix
  rcases List.prefix_concat_iff.mp hprefix with heq | hbefore
  · obtain ⟨rfl, hlast⟩ := List.append_inj' heq rfl
    obtain rfl := List.singleton_inj.mp hlast
    exact hcount
  · exact h earlier last hbefore

end Source

namespace Reader

/-- A request is refused by a span and goes no further, or every span has room for it and the source is asked. -/
theorem after_read (count : Nat) (reader : Reader) :
    Read.after (read count) reader = reader ∨
    (∀ left ∈ reader.spans, count ≤ left) ∧
      (Read.after (read count) reader).source = reader.source.ask count := by
  unfold Read.after read Source.ask
  cases hspan : reader.spans.find? (· < count) with
  | some left => exact .inl rfl
  | none =>
    refine .inr ⟨fun left hleft => by simpa using List.find?_eq_none.mp hspan left hleft, ?_⟩
    cases Source.read count reader.source with
    | ok bytes after => rfl
    | error error after => rfl

/-- Since the source was at `start`, the reader has been inside a span that ends `length` bytes behind it, now below `depth` others: no request was for bytes beyond that end, and what is left of the span leads up to it. -/
structure Confined (start : Source) (length depth : Nat) (reader : Reader) : Prop where
  asked : ∃ counts, reader.source = start.askAll counts ∧ start.StaysWithin length counts
  span : ∃ left, reader.spans[depth]? = some left ∧
    reader.source.position + left = start.position + length

variable {start : Source} {length depth : Nat} {reader : Reader}

theorem confined_enter (reader : Reader) (length : Nat) :
    Confined reader.source length 0 (reader.enter length) where
  asked := ⟨[], rfl, reader.source.staysWithin_nil length⟩
  span := ⟨length, rfl, rfl⟩

theorem Confined.enter (h : Confined start length depth reader) (inner : Nat) :
    Confined start length (depth + 1) (reader.enter inner) where
  asked := h.asked
  span := h.span

theorem Confined.leave (h : Confined start length (depth + 1) reader) :
    Confined start length depth reader.leave where
  asked := h.asked
  span := by
    obtain ⟨left, hleft, hend⟩ := h.span
    exact ⟨left, by rwa [Reader.leave, List.getElem?_tail], hend⟩

/-- The source is asked only if the span has room for the request, so the request ends inside the span as well. -/
theorem Confined.read (h : Confined start length depth reader) (count : Nat) :
    Confined start length depth (Read.after (read count) reader) := by
  obtain ⟨counts, hsource, hcounts⟩ := h.asked
  obtain ⟨left, hleft, hend⟩ := h.span
  obtain ⟨moved, hadvanced⟩ := read_advances count reader
  constructor
  case asked =>
    rcases after_read count reader with hrefused | ⟨hroom, hasked⟩
    · exact ⟨counts, by rw [hrefused, hsource], hcounts⟩
    · have hcount := hroom left (List.mem_of_getElem? hleft)
      refine ⟨counts ++ [count], by rw [hasked, hsource, Source.askAll_concat], hcounts.concat ?_⟩
      rw [← hsource]
      omega
  case span =>
    have hmoved := hadvanced.allowed left (List.mem_of_getElem? hleft)
    refine ⟨left - moved, ?_, ?_⟩
    · rw [hadvanced.spans, List.getElem?_map, hleft, Option.map_some]
    · rw [hadvanced.position]
      omega

end Reader

end EngineConsole
