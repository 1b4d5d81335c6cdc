import EngineConsole.Bytes.Reader

/-!
# What a reader delivers

A request is served whole or not at all, so what any reading leaves behind is told by one number: how many bytes it was given. The source has moved on by that many, every open span has shrunk by as many, and none of them held less. The reverse direction serves the round trips: a reader that offers certain bytes next gives a reading of these bytes all of them.
-/

namespace EngineConsole

/-! ### Moving on -/

namespace Reader

/-- `after` is `before` with `count` more bytes delivered. They were left in the source and in every open span; only the record of requests may differ otherwise. -/
structure Advanced (before : Reader) (count : Nat) (after : Reader) : Prop where
  supply : after.source.supply = before.source.supply
  rest : after.source.rest = before.source.rest.drop count
  position : after.source.position = before.source.position + count
  spans : after.spans = before.spans.map (· - count)
  held : count ≤ before.unread
  allowed : ∀ left ∈ before.spans, count ≤ left

theorem Advanced.refl (reader : Reader) : reader.Advanced 0 reader where
  supply := rfl
  rest := rfl
  position := rfl
  spans := by simp
  held := Nat.zero_le _
  allowed := fun _ _ => Nat.zero_le _

theorem Advanced.unread {before after : Reader} {count : Nat} (h : before.Advanced count after) :
    after.unread + count = before.unread := by
  have hheld := h.held
  simp only [Reader.unread, h.rest, List.length_drop] at hheld ⊢
  omega

theorem Advanced.count_eq {before after : Reader} {m n : Nat} (hm : before.Advanced m after)
    (hn : before.Advanced n after) : m = n := by
  have hunread := hm.unread
  have hunread' := hn.unread
  omega

theorem Advanced.trans {first second third : Reader} {m n : Nat} (hm : first.Advanced m second)
    (hn : second.Advanced n third) : first.Advanced (m + n) third where
  supply := hn.supply.trans hm.supply
  rest := by rw [hn.rest, hm.rest, List.drop_drop]
  position := by rw [hn.position, hm.position, Nat.add_assoc]
  spans := by
    rw [hn.spans, hm.spans, List.map_map]
    refine List.map_congr_left fun left _ => ?_
    simp only [Function.comp_apply]
    omega
  held := by
    have := hn.held
    have := hm.unread
    omega
  allowed := fun left hleft => by
    have hfirst := hm.allowed left hleft
    have hsecond := hn.allowed (left - m) (hm.spans ▸ List.mem_map_of_mem hleft)
    omega

theorem Advanced.spanLeft {before after : Reader} {count : Nat} (h : before.Advanced count after) :
    after.spanLeft = before.spanLeft - count := by
  rw [Reader.spanLeft, h.spans, Reader.spanLeft]
  cases before.spans with
  | nil => exact (Nat.zero_sub count).symm
  | cons left spans => rfl

/-- What was delivered inside a span was delivered outside of it too. -/
theorem Advanced.leave {before after : Reader} {length count : Nat}
    (h : (before.enter length).Advanced count after) : before.Advanced count after.leave where
  supply := h.supply
  rest := h.rest
  position := h.position
  spans := by simp [Reader.leave, h.spans, Reader.enter]
  held := h.held
  allowed := fun left hleft => h.allowed left (List.mem_cons_of_mem _ hleft)

def Reaches (before after : Reader) : Prop := ∃ count, before.Advanced count after

theorem Reaches.refl (reader : Reader) : reader.Reaches reader := ⟨0, .refl reader⟩

theorem Reaches.trans {first second third : Reader} (h : first.Reaches second)
    (h' : second.Reaches third) : first.Reaches third := by
  obtain ⟨m, hm⟩ := h
  obtain ⟨n, hn⟩ := h'
  exact ⟨m + n, hm.trans hn⟩

theorem Reaches.unread_le {before after : Reader} (h : before.Reaches after) :
    after.unread ≤ before.unread := by
  obtain ⟨count, h⟩ := h
  have := h.unread
  omega

theorem Reaches.leave {before after : Reader} {length : Nat}
    (h : (before.enter length).Reaches after) : before.Reaches after.leave := by
  obtain ⟨count, h⟩ := h
  exact ⟨count, h.leave⟩

theorem Reaches.advanced_leave {before after : Reader} {length : Nat}
    (h : (before.enter length).Reaches after) (hleft : after.spanLeft = 0) :
    before.Advanced length after.leave := by
  obtain ⟨count, h⟩ := h
  have hallowed := h.allowed length List.mem_cons_self
  have hspanLeft : after.spanLeft = length - count := h.spanLeft
  obtain rfl : count = length := by omega
  exact h.leave

end Reader

/-! ### One request -/

theorem Source.length_le_of_refusal_eq_none {source : Source} {count : Nat}
    (h : source.refusal count = none) : count ≤ source.rest.length := by
  rw [← source.holds_iff]
  unfold Source.refusal at h
  split at h <;> simp_all

namespace Reader

/-- A request is served in full, or it is refused and consumes nothing. -/
theorem read_cases (count : Nat) (reader : Reader) :
    (∃ after, read count reader = .ok (reader.source.rest.take count) after ∧
      reader.Advanced count after) ∨
    (∃ error after, read count reader = .error error after ∧ reader.Advanced 0 after) := by
  unfold read Source.read
  cases hspan : reader.spans.find? (· < count) with
  | some left => exact .inr ⟨_, _, rfl, .refl reader⟩
  | none =>
    cases hrefusal : reader.source.refusal count with
    | some error =>
      refine .inr ⟨_, _, rfl, ?_⟩
      exact ⟨rfl, rfl, rfl, by simp, Nat.zero_le _, fun _ _ => Nat.zero_le _⟩
    | none =>
      refine .inl ⟨_, rfl, rfl, rfl, rfl, rfl, Source.length_le_of_refusal_eq_none hrefusal, ?_⟩
      intro left hleft
      simpa using List.find?_eq_none.mp hspan left hleft

end Reader

namespace Reader

/-- Behind `count` more bytes there is nothing to read: the source has no more, or an open span is used up. -/
def Ends (reader : Reader) (count : Nat) : Prop := reader.unread = count ∨ count ∈ reader.spans

theorem Ends.advance {reader after : Reader} {m n : Nat} (h : reader.Ends (m + n))
    (hadvanced : reader.Advanced m after) : after.Ends n := by
  rcases h with hunread | hspan
  · have := hadvanced.unread
    exact .inl (by omega)
  · refine .inr ?_
    rw [hadvanced.spans]
    simpa using List.mem_map_of_mem (f := (· - m)) hspan

theorem ends_enter (reader : Reader) (length : Nat) : (reader.enter length).Ends length :=
  .inr List.mem_cons_self

theorem read_of_ends {reader : Reader} {count : Nat} (h : reader.Ends 0) (hcount : 0 < count) :
    ∃ error after, read count reader = .error error after ∧ reader.Advanced 0 after := by
  rcases read_cases count reader with ⟨after, _, hadvanced⟩ | hrefused
  · rcases h with hunread | hspan
    · have := hadvanced.held
      omega
    · have := hadvanced.allowed 0 hspan
      omega
  · exact hrefused

end Reader

/-! ### Any sequence of requests -/

namespace Read

variable {α β : Type}

/-- The reader that a computation leaves behind, whether it fails or not. -/
def after (op : Read α) (reader : Reader) : Reader :=
  match op reader with
  | .ok _ after => after
  | .error _ after => after

def Advances (op : Read α) : Prop := ∀ reader : Reader, reader.Reaches (op.after reader)

theorem Advances.reaches_of_ok {op : Read α} (h : Advances op) {reader after : Reader} {value : α}
    (hop : op reader = .ok value after) : reader.Reaches after := by
  have hreaches := h reader
  rwa [Read.after, hop] at hreaches

theorem Advances.reaches_of_error {op : Read α} (h : Advances op) {reader after : Reader}
    {error : TransferError} (hop : op reader = .error error after) : reader.Reaches after := by
  have hreaches := h reader
  rwa [Read.after, hop] at hreaches

/-- Whenever the computation succeeds, it has taken a byte at least. -/
def Consumes (op : Read α) : Prop :=
  ∀ ⦃reader after : Reader⦄ ⦃value : α⦄, op reader = .ok value after → after.unread < reader.unread

theorem advances_pure (value : α) : Advances (pure value) := fun reader => .refl reader

theorem advances_throw (error : TransferError) : Advances (throw error : Read α) :=
  fun reader => .refl reader

theorem after_bind (op : Read α) (next : α → Read β) (reader : Reader) :
    after (op >>= next) reader =
      match op reader with
      | .ok value middle => after (next value) middle
      | .error _ middle => middle := by
  simp only [after, bind, EStateM.bind]
  cases op reader <;> rfl

theorem Advances.bind {op : Read α} {next : α → Read β} (h : Advances op)
    (hnext : ∀ value, Advances (next value)) : Advances (op >>= next) := by
  intro reader
  rw [after_bind]
  cases hop : op reader with
  | ok value middle => exact (h.reaches_of_ok hop).trans (hnext value middle)
  | error error middle => exact h.reaches_of_error hop

theorem Consumes.bind {op : Read α} {next : α → Read β} (h : Consumes op)
    (hnext : ∀ value, Advances (next value)) : Consumes (op >>= next) := by
  intro reader after result hresult
  simp only [Bind.bind, EStateM.bind] at hresult
  cases hop : op reader with
  | ok value middle =>
    rw [hop] at hresult
    have hle := ((hnext value).reaches_of_ok hresult).unread_le
    have hlt := h hop
    omega
  | error error middle =>
    rw [hop] at hresult
    cases hresult

end Read

namespace Reader

theorem read_advances (count : Nat) : Read.Advances (read count) := by
  intro reader
  rcases read_cases count reader with ⟨after, hread, hadvanced⟩ | ⟨error, after, hread, hadvanced⟩
  · exact ⟨count, by rwa [Read.after, hread]⟩
  · exact ⟨0, by rwa [Read.after, hread]⟩

theorem readByte_advances : Read.Advances readByte :=
  (read_advances 1).bind fun bytes => Read.advances_pure (bytes.headD 0)

theorem advanced_of_read {count : Nat} {reader after : Reader} {bytes : Bytes}
    (h : read count reader = .ok bytes after) :
    bytes = reader.source.rest.take count ∧ reader.Advanced count after := by
  rcases read_cases count reader with ⟨middle, hok, hadvanced⟩ | ⟨error, middle, herror, _⟩
  · rw [hok] at h
    cases h
    exact ⟨rfl, hadvanced⟩
  · rw [herror] at h
    cases h

theorem advanced_of_refused {count : Nat} {reader after : Reader} {error : TransferError}
    (h : read count reader = .error error after) : reader.Advanced 0 after := by
  rcases read_cases count reader with ⟨middle, hok, _⟩ | ⟨other, middle, herror, hadvanced⟩
  · rw [hok] at h
    cases h
  · rw [herror] at h
    cases h
    exact hadvanced

theorem read_consumes {count : Nat} (hcount : 0 < count) : Read.Consumes (read count) := by
  intro reader after bytes hread
  have hunread := (advanced_of_read hread).2.unread
  omega

theorem readByte_consumes : Read.Consumes readByte :=
  (read_consumes Nat.one_pos).bind fun bytes => Read.advances_pure (bytes.headD 0)

theorem skipBytes_advances (fuel left : Nat) : Read.Advances (skipBytes fuel left) := by
  induction fuel generalizing left with
  | zero => exact Read.advances_pure ()
  | succ fuel ih =>
    rw [skipBytes]
    split
    · exact Read.advances_pure ()
    · exact (read_advances _).bind fun _ => ih _

theorem skipSpan_advances : Read.Advances skipSpan := fun reader =>
  skipBytes_advances reader.spanLeft reader.spanLeft reader

theorem spanLeft_of_skipBytes {fuel left : Nat} {reader after : Reader} (hfuel : left ≤ fuel)
    (hleft : reader.spanLeft = left) (h : skipBytes fuel left reader = .ok () after) :
    after.spanLeft = 0 := by
  induction fuel generalizing left reader with
  | zero =>
    cases h
    omega
  | succ fuel ih =>
    rw [skipBytes] at h
    split at h
    · cases h
      omega
    · simp only [bind, EStateM.bind] at h
      cases hread : read (min left skipChunk) reader with
      | error error middle =>
        rw [hread] at h
        cases h
      | ok bytes middle =>
        rw [hread] at h
        have hmiddle := (advanced_of_read hread).2.spanLeft
        have hchunk : 0 < skipChunk := by decide
        exact ih (by omega) (by omega) h

/-- The bound on the chunks is never what ends the skipping of a span. -/
theorem spanLeft_of_skipSpan {reader after : Reader} (h : skipSpan reader = .ok () after) :
    after.spanLeft = 0 :=
  spanLeft_of_skipBytes (Nat.le_refl _) rfl h

end Reader

/-! ### A reader that offers certain bytes -/

/-- The source refuses nothing but what it does not hold. -/
def Supply.Willing : Supply → Prop
  | .memory => True
  | .callback refuses => ∀ call, refuses call = false

theorem Source.refusal_eq_none_of_willing {source : Source} {count : Nat}
    (hwilling : source.supply.Willing) (hcount : count ≤ source.rest.length) :
    source.refusal count = none := by
  have hholds := (source.holds_iff count).mpr hcount
  unfold Source.refusal
  split
  · rw [if_pos hholds]
  · rename_i refuses hsupply
    rw [hsupply] at hwilling
    simp [hwilling source.requests.length, hholds]

namespace Reader

/-- The bytes that the reader delivers next, if it is asked for them: the source holds them and is willing, and every open span has room for them. -/
structure Offers (reader : Reader) (data : Bytes) : Prop where
  willing : reader.source.supply.Willing
  next : data <+: reader.source.rest
  allowed : ∀ left ∈ reader.spans, data.length ≤ left

theorem offers_of_rest_eq {source : Source} {data : Bytes} (hwilling : source.supply.Willing)
    (hrest : source.rest = data) : Offers { source } data where
  willing := hwilling
  next := hrest ▸ List.prefix_refl data
  allowed := fun _ hleft => nomatch hleft

theorem offers_ofBytes (data : Bytes) : (ofBytes data).Offers data := offers_of_rest_eq trivial rfl

theorem ends_ofBytes (data : Bytes) : (ofBytes data).Ends data.length := .inl rfl

theorem Offers.of_append_left {reader : Reader} {data more : Bytes}
    (h : reader.Offers (data ++ more)) : reader.Offers data where
  willing := h.willing
  next := (List.prefix_append data more).trans h.next
  allowed := fun left hleft => by
    have := h.allowed left hleft
    rw [List.length_append] at this
    omega

theorem Offers.advance {reader after : Reader} {data more : Bytes}
    (h : reader.Offers (data ++ more)) (hadvanced : reader.Advanced data.length after) :
    after.Offers more where
  willing := hadvanced.supply ▸ h.willing
  next := by
    obtain ⟨rest, hrest⟩ := h.next
    rw [hadvanced.rest, ← hrest, List.append_assoc, List.drop_left]
    exact List.prefix_append more rest
  allowed := fun left hleft => by
    rw [hadvanced.spans, List.mem_map] at hleft
    obtain ⟨outer, houter, rfl⟩ := hleft
    have := h.allowed outer houter
    rw [List.length_append] at this
    omega

theorem Offers.enter {reader : Reader} {data : Bytes} {length : Nat} (h : reader.Offers data)
    (hlength : data.length ≤ length) : (reader.enter length).Offers data where
  willing := h.willing
  next := h.next
  allowed := fun left hleft => by
    rcases List.mem_cons.mp hleft with rfl | hleft
    · exact hlength
    · exact h.allowed left hleft

theorem read_of_offers {reader : Reader} {data : Bytes} (h : reader.Offers data) :
    ∃ after, read data.length reader = .ok data after ∧ reader.Advanced data.length after := by
  obtain ⟨rest, hrest⟩ := h.next
  have hspan : reader.spans.find? (· < data.length) = none := by
    refine List.find?_eq_none.mpr fun left hleft => ?_
    simpa using h.allowed left hleft
  have hheld : data.length ≤ reader.source.rest.length := by
    rw [← hrest, List.length_append]
    omega
  have hrefusal := Source.refusal_eq_none_of_willing h.willing hheld
  have htake : reader.source.rest.take data.length = data := by rw [← hrest, List.take_left]
  simp only [read, hspan, Source.read, hrefusal, htake]
  exact ⟨_, rfl, rfl, rfl, rfl, rfl, hheld, h.allowed⟩

end Reader

namespace Read

variable {α β : Type}

/-- The computation yields `value` from any reader that offers `data`, and takes exactly these bytes. -/
def Yields (op : Read α) (data : Bytes) (value : α) : Prop :=
  ∀ reader : Reader, reader.Offers data →
    ∃ after, op reader = .ok value after ∧ reader.Advanced data.length after

theorem yields_pure (value : α) : Yields (pure value) [] value := fun reader _ =>
  ⟨reader, rfl, .refl reader⟩

theorem Yields.bind {op : Read α} {next : α → Read β} {data more : Bytes} {value : α} {result : β}
    (h : Yields op data value) (hnext : Yields (next value) more result) :
    Yields (op >>= next) (data ++ more) result := by
  intro reader hoffers
  obtain ⟨middle, hop, hmiddle⟩ := h reader hoffers.of_append_left
  obtain ⟨after, hresult, hafter⟩ := hnext middle (hoffers.advance hmiddle)
  refine ⟨after, ?_, ?_⟩
  · simp only [Bind.bind, EStateM.bind, hop, hresult]
  · rw [List.length_append]
    exact hmiddle.trans hafter

theorem Yields.map {op : Read α} {f : α → β} {data : Bytes} {value : α} (h : Yields op data value) :
    Yields (op >>= fun value => pure (f value)) data (f value) := by
  have hbind : Yields (op >>= fun value => pure (f value)) (data ++ []) (f value) :=
    h.bind (yields_pure (f value))
  rwa [List.append_nil] at hbind

theorem yields_read (data : Bytes) : Yields (Reader.read data.length) data data := fun _ hoffers =>
  Reader.read_of_offers hoffers

theorem yields_readByte (byte : UInt8) : Yields Reader.readByte [byte] byte :=
  (yields_read [byte]).map

end Read

end EngineConsole
