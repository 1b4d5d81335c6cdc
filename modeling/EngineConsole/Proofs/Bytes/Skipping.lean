import EngineConsole.Proofs.Bytes.Delivery

/-!
# Skipping a span

What is left of a span is read in chunks and dropped. Every chunk has to come through all the spans around it, so what can be had is the least of what they and the source have left. If that is enough, the span is skipped to its end; otherwise as many whole chunks are taken as can be had, and the next request is the one that fails. The chunks need no bound to come to an end: each of them makes the span shorter.
-/

namespace EngineConsole.Reader

variable {reader middle after : Reader} {count fuel left : Nat}

/-! ### What can be had -/

/-- The number of bytes that can be had from the reader: the least of what the source and every open span have left. -/
def reachable (reader : Reader) : Nat := reader.spans.foldr min reader.unread

theorem reachable_enter (reader : Reader) (length : Nat) :
    (reader.enter length).reachable = min length reader.reachable := rfl

theorem le_reachable_iff :
    count ≤ reader.reachable ↔ count ≤ reader.unread ∧ ∀ left ∈ reader.spans, count ≤ left := by
  rw [reachable]
  induction reader.spans with
  | nil => simp
  | cons left spans ih => rw [List.foldr_cons, Nat.le_min, ih, List.forall_mem_cons, and_left_comm]

theorem Advanced.le_reachable (h : reader.Advanced count after) : count ≤ reader.reachable :=
  le_reachable_iff.mpr ⟨h.held, h.allowed⟩

/-- What was delivered can no longer be had, and everything else still can. -/
theorem Advanced.reachable_add (h : reader.Advanced count after) :
    after.reachable + count = reader.reachable := by
  have hmore : ∀ more, more ≤ after.reachable ↔ more + count ≤ reader.reachable := by
    intro more
    have hunread := h.unread
    have hheld : more ≤ after.unread ↔ more + count ≤ reader.unread := by omega
    rw [le_reachable_iff, le_reachable_iff, hheld, h.spans, List.forall_mem_map]
    refine and_congr_right fun _ => forall₂_congr fun left hleft => ?_
    have hallowed := h.allowed left hleft
    omega
  have hcount := h.le_reachable
  have hall := (hmore after.reachable).mp (Nat.le_refl _)
  have hrest := (hmore (reader.reachable - count)).mpr (by omega)
  omega

theorem read_of_le_reachable (hwilling : reader.source.supply.Willing)
    (h : count ≤ reader.reachable) :
    ∃ bytes after, read count reader = .ok bytes after ∧ reader.Advanced count after := by
  obtain ⟨hheld, hallowed⟩ := le_reachable_iff.mp h
  have hlength : (reader.source.rest.take count).length = count := List.length_take_of_le hheld
  have hoffers : reader.Offers (reader.source.rest.take count) :=
    ⟨hwilling, List.take_prefix _ _, hlength.symm ▸ hallowed⟩
  obtain ⟨after, hread, hadvanced⟩ := read_of_offers hoffers
  rw [hlength] at hread hadvanced
  exact ⟨_, after, hread, hadvanced⟩

theorem read_of_reachable_lt (h : reader.reachable < count) :
    ∃ error after, read count reader = .error error after ∧ reader.Advanced 0 after := by
  rcases read_cases count reader with ⟨after, _, hadvanced⟩ | hrefused
  · exact absurd hadvanced.le_reachable (Nat.not_le.mpr h)
  · exact hrefused

/-! ### The loop without a bound -/

/-- Chunks of the innermost span are read and dropped until nothing is left of it, or until one of them is refused. -/
inductive Drops : Reader → EStateM.Result TransferError Reader Unit → Prop where
  | done {reader : Reader} (exhausted : reader.spanLeft = 0) : Drops reader (.ok () reader)
  | refused {reader after : Reader} {error : TransferError} (unfinished : 0 < reader.spanLeft)
      (chunk : read (min reader.spanLeft skipChunk) reader = .error error after) :
      Drops reader (.error error after)
  | dropped {reader middle : Reader} {bytes : Bytes}
      {result : EStateM.Result TransferError Reader Unit} (unfinished : 0 < reader.spanLeft)
      (chunk : read (min reader.spanLeft skipChunk) reader = .ok bytes middle)
      (others : Drops middle result) : Drops reader result

theorem drops_skipBytes (hfuel : left ≤ fuel) (hleft : reader.spanLeft = left) :
    Drops reader (skipBytes fuel left reader) := by
  induction fuel generalizing left reader with
  | zero => exact .done (by omega)
  | succ fuel ih =>
    rw [skipBytes]
    split
    · exact .done (by omega)
    · have hchunk : 0 < skipChunk := by decide
      simp only [bind, EStateM.bind]
      cases hread : read (min left skipChunk) reader with
      | error error after => exact .refused (by omega) (hleft ▸ hread)
      | ok bytes middle =>
        have hmiddle := (advanced_of_read hread).2.spanLeft
        exact .dropped (by omega) (hleft ▸ hread) (ih (by omega) (by omega))

theorem Drops.skipBytes_eq {result : EStateM.Result TransferError Reader Unit}
    (h : Drops reader result) (hfuel : reader.spanLeft ≤ fuel) :
    skipBytes fuel reader.spanLeft reader = result := by
  induction h generalizing fuel with
  | done exhausted =>
    rw [exhausted]
    cases fuel <;> rfl
  | refused unfinished chunk =>
    obtain ⟨fuel, rfl⟩ := Nat.exists_eq_add_one.mpr (Nat.lt_of_lt_of_le unfinished hfuel)
    rw [skipBytes, if_neg (Nat.ne_of_gt unfinished)]
    simp only [bind, EStateM.bind, chunk]
  | dropped unfinished chunk _ ih =>
    obtain ⟨fuel, rfl⟩ := Nat.exists_eq_add_one.mpr (Nat.lt_of_lt_of_le unfinished hfuel)
    have hchunk : 0 < skipChunk := by decide
    have hmiddle := (advanced_of_read chunk).2.spanLeft
    rw [skipBytes, if_neg (Nat.ne_of_gt unfinished)]
    simp only [bind, EStateM.bind, chunk]
    rw [← hmiddle]
    exact ih (by omega)

/-- The loop comes to an end, and what it comes to is what the bounded one does. -/
theorem drops_iff {result : EStateM.Result TransferError Reader Unit} :
    Drops reader result ↔ skipSpan reader = result :=
  ⟨fun h => h.skipBytes_eq (Nat.le_refl _), fun h => h ▸ drops_skipBytes (Nat.le_refl _) rfl⟩

/-! ### How far the chunks go -/

theorem skipBytes_of_le_reachable (hwilling : reader.source.supply.Willing) (hfuel : left ≤ fuel)
    (h : left ≤ reader.reachable) :
    ∃ after, skipBytes fuel left reader = .ok () after ∧ reader.Advanced left after := by
  induction fuel generalizing left reader with
  | zero =>
    obtain rfl := Nat.le_zero.mp hfuel
    exact ⟨reader, rfl, .refl reader⟩
  | succ fuel ih =>
    rw [skipBytes]
    split
    · rename_i hleft
      exact ⟨reader, rfl, hleft ▸ .refl reader⟩
    · have hchunk : 0 < skipChunk := by decide
      obtain ⟨bytes, middle, hread, hmiddle⟩ :=
        read_of_le_reachable hwilling (show min left skipChunk ≤ reader.reachable by omega)
      have hreachable := hmiddle.reachable_add
      have hothers : left - min left skipChunk ≤ middle.reachable := by omega
      obtain ⟨after, hskip, hafter⟩ := ih (hmiddle.supply ▸ hwilling) (by omega) hothers
      refine ⟨after, ?_, ?_⟩
      · simp only [bind, EStateM.bind, hread, hskip]
      · have hall : min left skipChunk + (left - min left skipChunk) = left := by omega
        exact hall ▸ hmiddle.trans hafter

/-- With more to skip than can be had, the chunks that are taken are whole ones, and the first that cannot be had is refused. -/
theorem skipBytes_of_reachable_lt (hwilling : reader.source.supply.Willing) (hfuel : left ≤ fuel)
    (h : reader.reachable < left) :
    ∃ error after, skipBytes fuel left reader = .error error after ∧
      reader.Advanced (skipChunk * (reader.reachable / skipChunk)) after := by
  induction fuel generalizing left reader with
  | zero => omega
  | succ fuel ih =>
    rw [skipBytes, if_neg (by omega)]
    rcases Nat.lt_or_ge reader.reachable (min left skipChunk) with hrefused | hserved
    · obtain ⟨error, after, hread, hafter⟩ := read_of_reachable_lt hrefused
      have hnone : reader.reachable / skipChunk = 0 := Nat.div_eq_of_lt (by omega)
      refine ⟨error, after, ?_, ?_⟩
      · simp only [bind, EStateM.bind, hread]
      · rw [hnone, Nat.mul_zero]
        exact hafter
    · -- a chunk that is the last one would be all that is left, which cannot be had
      have hwhole : min left skipChunk = skipChunk := by omega
      rw [hwhole] at hserved ⊢
      obtain ⟨bytes, middle, hread, hmiddle⟩ := read_of_le_reachable hwilling hserved
      have hreachable := hmiddle.reachable_add
      have hchunk : 0 < skipChunk := by decide
      have hothers : middle.reachable < left - skipChunk := by omega
      obtain ⟨error, after, hskip, hafter⟩ := ih (hmiddle.supply ▸ hwilling) (by omega) hothers
      refine ⟨error, after, ?_, ?_⟩
      · simp only [bind, EStateM.bind, hread, hskip]
      · have hchunks : skipChunk * (reader.reachable / skipChunk) =
            skipChunk + skipChunk * (middle.reachable / skipChunk) := by
          rw [← hreachable, Nat.add_div_right _ hchunk, Nat.mul_succ, Nat.add_comm]
        rw [hchunks]
        exact hmiddle.trans hafter

/-! ### The two outcomes -/

theorem skipSpan_of_le_reachable (hwilling : reader.source.supply.Willing) {length : Nat}
    (h : length ≤ reader.reachable) :
    ∃ after, skipSpan (reader.enter length) = .ok () after ∧
      (reader.enter length).Advanced length after := by
  have hinside : length ≤ (reader.enter length).reachable := by
    rw [reachable_enter]
    exact Nat.le_min.mpr ⟨Nat.le_refl _, h⟩
  exact skipBytes_of_le_reachable hwilling (Nat.le_refl _) hinside

theorem skipSpan_of_reachable_lt (hwilling : reader.source.supply.Willing) {length : Nat}
    (h : reader.reachable < length) :
    ∃ error after, skipSpan (reader.enter length) = .error error after ∧
      (reader.enter length).Advanced (skipChunk * (reader.reachable / skipChunk)) after := by
  have hreachable : (reader.enter length).reachable = reader.reachable :=
    Nat.min_eq_right (Nat.le_of_lt h)
  rw [← hreachable] at h ⊢
  exact skipBytes_of_reachable_lt hwilling (Nat.le_refl _) h

/-- What comes of skipping a span of `length` bytes inside `reader`. -/
inductive Skipped (reader : Reader) (length : Nat) :
    EStateM.Result TransferError Reader Unit → Prop where
  /-- The whole span can be had: nothing is left of it, and every reader below it has moved on by its length. -/
  | whole {after : Reader} (had : length ≤ reader.reachable) (exhausted : after.spanLeft = 0)
      (advanced : reader.Advanced length after.leave) : Skipped reader length (.ok () after)
  /-- It cannot: every reader below it has moved on by as many chunks of sixteen bytes as can be had, and the span is shorter by as much. -/
  | short {after : Reader} {error : TransferError} (lacking : reader.reachable < length)
      (rest : after.spanLeft = length - 16 * (reader.reachable / 16))
      (advanced : reader.Advanced (16 * (reader.reachable / 16)) after.leave) :
      Skipped reader length (.error error after)

/-- Skipping a span comes to an end, and it succeeds exactly if the whole span can be had. -/
theorem skipSpan_enter (length : Nat) (hwilling : reader.source.supply.Willing) :
    Drops (reader.enter length) (skipSpan (reader.enter length)) ∧
      Skipped reader length (skipSpan (reader.enter length)) := by
  refine ⟨drops_iff.mpr rfl, ?_⟩
  rcases Nat.lt_or_ge reader.reachable length with hlacking | hhad
  · obtain ⟨error, after, hskip, hadvanced⟩ := skipSpan_of_reachable_lt hwilling hlacking
    rw [hskip]
    exact .short hlacking hadvanced.spanLeft hadvanced.leave
  · obtain ⟨after, hskip, hadvanced⟩ := skipSpan_of_le_reachable hwilling hhad
    rw [hskip]
    exact .whole hhad (hadvanced.spanLeft.trans (Nat.sub_self length)) hadvanced.leave

/-- The span promises fifty bytes, the one around it has thirty-seven left and the source forty: two chunks are dropped, and the third is refused. -/
theorem skipSpan_enter_nested :
    let around := (ofBytes (List.replicate 40 0)).enter 37
    around.source.supply.Willing ∧ around.reachable = 37 ∧
      Drops (around.enter 50) (skipSpan (around.enter 50)) ∧
      Skipped around 50 (skipSpan (around.enter 50)) :=
  ⟨trivial, rfl, skipSpan_enter 50 trivial⟩

example : (skipSpan.after ((ofBytes (List.replicate 40 0)).enter 37 |>.enter 50)).spans = [18, 5] := by
  decide

end EngineConsole.Reader
