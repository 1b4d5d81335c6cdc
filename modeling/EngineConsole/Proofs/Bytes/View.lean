import EngineConsole.Proofs.Bytes.Skipping

/-!
# What is to be seen from inside

A source that holds certain bytes and no others, and a span of just that length around the same bytes in a longer source, cannot be told apart by requests: both deliver the bytes, and both refuse what goes beyond them with the same number of bytes left. So the bytes and the spans that were opened since determine every answer.
-/

namespace EngineConsole

namespace Source

/-- The source and the spans around its next bytes deliver `data` and nothing else. -/
inductive Exposes (data : Bytes) (source : Source) : List Nat → Prop where
  | all (supply : source.supply = .memory) (rest : source.rest = data) : Exposes data source []
  /-- The innermost span ends behind the data, and the others not before. -/
  | part {outer : List Nat} (willing : source.supply.Willing) (next : data <+: source.rest)
      (allowed : ∀ left ∈ outer, data.length ≤ left) : Exposes data source (data.length :: outer)

variable {data : Bytes} {source : Source} {outer : List Nat}

theorem Exposes.willing (h : Exposes data source outer) : source.supply.Willing := by
  cases h with
  | all supply rest => exact supply ▸ trivial
  | part willing next allowed => exact willing

theorem Exposes.next (h : Exposes data source outer) : data <+: source.rest := by
  cases h with
  | all supply rest => exact rest ▸ List.prefix_refl data
  | part willing next allowed => exact next

theorem Exposes.allowed (h : Exposes data source outer) : ∀ left ∈ outer, data.length ≤ left := by
  intro left hleft
  cases h with
  | all supply rest => exact nomatch hleft
  | part willing next allowed =>
    rcases List.mem_cons.mp hleft with rfl | houter
    · exact Nat.le_refl _
    · exact allowed left houter

theorem Exposes.drop {after : Source} {count : Nat} (h : Exposes data source outer)
    (hcount : count ≤ data.length) (hsupply : after.supply = source.supply)
    (hrest : after.rest = source.rest.drop count) :
    Exposes (data.drop count) after (outer.map (· - count)) := by
  cases h with
  | all supply rest => exact .all (hsupply.trans supply) (by rw [hrest, rest])
  | @part others willing next allowed =>
    have hlength : data.length - count = (data.drop count).length := List.length_drop.symm
    rw [List.map_cons, hlength]
    refine .part (hsupply ▸ willing) ?_ fun left hleft => ?_
    · obtain ⟨more, hmore⟩ := next
      rw [hrest, ← hmore, List.drop_append_of_le_length hcount]
      exact List.prefix_append _ more
    · obtain ⟨other, hother, rfl⟩ := List.mem_map.mp hleft
      have := allowed other hother
      omega

end Source

namespace Reader

/-- Inside the spans `inner`, the reader has `data` to deliver and nothing else. -/
def View (inner : List Nat) (data : Bytes) (reader : Reader) : Prop :=
  ∃ outer, reader.spans = inner ++ outer ∧ reader.source.Exposes data outer

variable {inner : List Nat} {data : Bytes} {reader : Reader}

theorem view_ofBytes (data : Bytes) : View [] data (ofBytes data) := ⟨[], rfl, .all rfl rfl⟩

theorem Offers.view (h : reader.Offers data) : View [] data (reader.enter data.length) :=
  ⟨data.length :: reader.spans, rfl, .part h.willing h.next h.allowed⟩

theorem View.enter (h : View inner data reader) (length : Nat) :
    View (length :: inner) data (reader.enter length) := by
  obtain ⟨outer, hspans, hexposes⟩ := h
  exact ⟨outer, by rw [Reader.enter, hspans, List.cons_append], hexposes⟩

theorem View.leave {length : Nat} (h : View (length :: inner) data reader) :
    View inner data reader.leave := by
  obtain ⟨outer, hspans, hexposes⟩ := h
  exact ⟨outer, by rw [Reader.leave, hspans, List.cons_append, List.tail_cons], hexposes⟩

/-! ### Requests -/

theorem View.advance {after : Reader} {count : Nat} (h : View inner data reader)
    (hcount : count ≤ data.length) (hadvanced : reader.Advanced count after) :
    View (inner.map (· - count)) (data.drop count) after := by
  obtain ⟨outer, hspans, hexposes⟩ := h
  refine ⟨outer.map (· - count), ?_, hexposes.drop hcount hadvanced.supply hadvanced.rest⟩
  rw [hadvanced.spans, hspans, List.map_append]

theorem View.read_served (h : View inner data reader) (count : Nat)
    (hinner : ∀ left ∈ inner, count ≤ left) (hcount : count ≤ data.length) :
    ∃ after, read count reader = .ok (data.take count) after ∧
      View (inner.map (· - count)) (data.drop count) after := by
  obtain ⟨outer, hspans, hexposes⟩ := id h
  have htake : (data.take count).length = count := List.length_take_of_le hcount
  have hoffers : reader.Offers (data.take count) := by
    refine ⟨hexposes.willing, (List.take_prefix count data).trans hexposes.next, ?_⟩
    rw [htake, hspans, List.forall_mem_append]
    exact ⟨hinner, fun left hleft => Nat.le_trans hcount (hexposes.allowed left hleft)⟩
  obtain ⟨after, hread, hadvanced⟩ := read_of_offers hoffers
  rw [htake] at hread hadvanced
  exact ⟨after, hread, h.advance hcount hadvanced⟩

theorem View.read_of_short (h : View inner data reader) {count left : Nat}
    (hleft : inner.find? (· < count) = some left) :
    read count reader = .error (.endOfData count left) reader := by
  obtain ⟨outer, hspans, _⟩ := h
  rw [read, hspans, List.find?_append, hleft, Option.some_or]

theorem View.read_beyond (h : View inner data reader) {count : Nat}
    (hinner : inner.find? (· < count) = none) (hcount : data.length < count) :
    ∃ after, read count reader = .error (.endOfData count data.length) after ∧
      View inner data after := by
  obtain ⟨outer, hspans, hexposes⟩ := id h
  cases hexposes with
  | all supply rest =>
    -- there is no span around the data, so the request reaches the source
    have hfind : reader.spans.find? (· < count) = none := by rw [hspans, List.append_nil, hinner]
    have hlacks : ¬ reader.source.holds count = true := by
      rw [Source.holds_iff, rest]
      omega
    refine ⟨⟨{ reader.source with requests := count :: reader.source.requests }, reader.spans⟩, ?_,
      [], hspans, .all supply rest⟩
    simp only [read, hfind, Source.read, Source.refusal, supply, if_neg hlacks, rest]
  | part willing next allowed =>
    have hfind : reader.spans.find? (· < count) = some data.length := by
      rw [hspans, List.find?_append, hinner, Option.none_or,
        List.find?_cons, decide_eq_true hcount]
    exact ⟨reader, by rw [read, hfind], h⟩

/-- Where a span ends with the data, what is left of it can be skipped. -/
theorem View.skipSpan (h : View [] data reader) : ∃ after, skipSpan reader = .ok () after := by
  obtain ⟨outer, hspans, hexposes⟩ := id h
  cases hexposes with
  | all supply rest => exact ⟨reader, by rw [Reader.skipSpan, spanLeft, hspans]; rfl⟩
  | part willing next allowed =>
    have hleft : reader.spanLeft = data.length := by rw [spanLeft, hspans]; rfl
    have hreachable : data.length ≤ reader.reachable := by
      rw [le_reachable_iff, hspans]
      exact ⟨next.length_le, List.forall_mem_cons.mpr ⟨Nat.le_refl _, allowed⟩⟩
    obtain ⟨after, hskip, _⟩ := skipBytes_of_le_reachable willing (Nat.le_refl _) hreachable
    exact ⟨after, by rw [Reader.skipSpan, hleft, hskip]⟩

end Reader

end EngineConsole
