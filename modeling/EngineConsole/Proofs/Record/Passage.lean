import EngineConsole.Proofs.Record.Repetition

/-!
# The records before a failure

A record loop that fails has merged some records successfully before it came to the one that failed. These records are complete: wherever their bytes are offered again, they are merged again, to the same value, and with nothing behind them the loop ends there without a failure.
-/

namespace EngineConsole.Delimited

variable {α : Type} {step : Tag → α → Reader → Merged α}

/-- One record after the other succeeds, from the first value and reader to the last ones. -/
inductive Passes (step : Tag → α → Reader → Merged α) : α → Reader → α → Reader → Prop
  | nil (value : α) (reader : Reader) : Passes step value reader value reader
  | cons {value last : α} {reader behindTag after : Reader} {tag : Tag}
      (head : Tag.read reader = (some tag, behindTag))
      (done : (step tag value behindTag).error = none)
      (others : Passes step (step tag value behindTag).value (step tag value behindTag).reader
        last after) :
      Passes step value reader last after

theorem Run.passes_of_error {value : α} {reader : Reader} {merged : Merged α} {error : DecodeError}
    (h : Run step value reader merged) (herror : merged.error = some error) :
    ∃ kept behind tag behindTag, Passes step value reader kept behind ∧
      Tag.read behind = (some tag, behindTag) ∧ (step tag kept behindTag).error = some error ∧
      merged.value = (step tag kept behindTag).value := by
  induction h with
  | stop head => cases herror
  | @fail value reader behindTag tag _ head _ =>
    exact ⟨value, reader, tag, behindTag, .nil value reader, head, herror, rfl⟩
  | next head done _ ih =>
    obtain ⟨kept, behind, tag, behindTag, hpasses, htag, hfailed, hvalue⟩ := ih herror
    exact ⟨kept, behind, tag, behindTag, .cons head done hpasses, htag, hfailed, hvalue⟩

/-- The loop without a bound has one outcome only. -/
theorem Run.unique {value : α} {reader : Reader} {first second : Merged α}
    (h : Run step value reader first) (h' : Run step value reader second) : first = second := by
  induction h generalizing second with
  | stop head =>
    cases h' with
    | stop head' =>
      cases head.symm.trans head'
      rfl
    | fail head' failed => exact nomatch head.symm.trans head'
    | next head' done rest => exact nomatch head.symm.trans head'
  | fail head failed =>
    cases h' with
    | stop head' => exact nomatch head.symm.trans head'
    | fail head' failed' =>
      cases head.symm.trans head'
      rfl
    | next head' done rest =>
      cases head.symm.trans head'
      exact absurd (done.symm.trans failed) (Option.some_ne_none _).symm
  | next head done _ ih =>
    cases h' with
    | stop head' => exact nomatch head.symm.trans head'
    | fail head' failed =>
      cases head.symm.trans head'
      exact absurd (done.symm.trans failed) (Option.some_ne_none _).symm
    | next head' done' rest =>
      cases head.symm.trans head'
      rw [ih rest]

theorem Passes.run {value last : α} {reader after : Reader} {merged : Merged α}
    (h : Passes step value reader last after) (hrun : Run step value reader merged) :
    ∃ others, Run step last after others ∧ merged.value = others.value ∧
      merged.reader = others.reader ∧ merged.error = others.error := by
  induction h generalizing merged with
  | nil value reader => exact ⟨merged, hrun, rfl, rfl, rfl⟩
  | cons head done _ ih =>
    cases hrun with
    | stop head' => exact nomatch head.symm.trans head'
    | fail head' failed =>
      cases head.symm.trans head'
      exact absurd (done.symm.trans failed) (Option.some_ne_none _).symm
    | next head' done' rest =>
      cases head.symm.trans head'
      have hothers := ih rest
      exact hothers

theorem Passes.ends {value last : α} {reader after stop : Reader} {merged : Merged α}
    (h : Passes step value reader last after) (hstop : Tag.read after = (none, stop))
    (hrun : Run step value reader merged) :
    merged.value = last ∧ merged.reader = stop ∧ merged.error = none := by
  obtain ⟨others, hothers, hvalue, hreader, herror⟩ := h.run hrun
  obtain rfl := hothers.unique (.stop hstop)
  exact ⟨hvalue, hreader, herror⟩

/-- Records that pass take certain bytes, and pass wherever these are offered. -/
theorem Passes.repeats (hstep : ∀ tag value, Merged.Repeatable (step tag value)) {value last : α}
    {reader after : Reader} (h : Passes step value reader last after)
    (hwilling : reader.source.supply.Willing) :
    ∃ data, reader.Delivered data after ∧ ∀ other : Reader, other.Offers data →
      ∃ after, Passes step value other last after ∧ other.Advanced data.length after := by
  induction h with
  | nil value reader =>
    exact ⟨[], .refl reader, fun other _ => ⟨other, .nil value other, .refl other⟩⟩
  | @cons value last reader behindTag after tag head done _ ih =>
    obtain ⟨front, hfront, htag⟩ := Tag.repeatable_read head
    have hwillingTag : behindTag.source.supply.Willing := hfront.advanced.supply ▸ hwilling
    obtain ⟨data, hdata, hrecord⟩ := hstep tag value hwillingTag done
    obtain ⟨more, hmore, hothers⟩ := ih (hdata.advanced.supply ▸ hwillingTag)
    refine ⟨front ++ (data ++ more), hfront.trans (hdata.trans hmore), fun other hoffers => ?_⟩
    obtain ⟨behindTag', htag', hbehindTag'⟩ := htag other hoffers.of_append_left
    have hpayload := hoffers.advance hbehindTag'
    obtain ⟨middle, hrecord', hmiddle⟩ := hrecord behindTag' hpayload.of_append_left
    obtain ⟨after', hothers', hafter'⟩ := hothers middle (hpayload.advance hmiddle)
    refine ⟨after', .cons htag' ?_ ?_, ?_⟩
    · rw [hrecord']
      exact done
    · rw [hrecord']
      exact hothers'
    · rw [List.length_append, List.length_append]
      exact hbehindTag'.trans (hmiddle.trans hafter')

theorem Passes.ends_ofBytes {value last : α} {data : Bytes} {after : Reader} {merged : Merged α}
    (h : Passes step value (.ofBytes data) last after)
    (hafter : (Reader.ofBytes data).Advanced data.length after)
    (hrun : Run step value (.ofBytes data) merged) : merged.value = last ∧ merged.error = none := by
  have hends : after.Ends 0 := (Reader.ends_ofBytes data).advance hafter
  obtain ⟨stop, hstop, _⟩ := Tag.read_of_ends hends
  obtain ⟨hvalue, _, herror⟩ := h.ends hstop hrun
  exact ⟨hvalue, herror⟩

/-- Data on which the loop fails consists of records that pass and of the rest, at whose head is the record that fails; it does so as well where the rest is all there is. -/
theorem Run.split_of_error (hrepeatable : ∀ tag value, Merged.Repeatable (step tag value))
    (hfollows : ∀ tag value, Merged.Follows Reader.Window TransferError.Same (step tag value))
    {value : α} {data : Bytes} {merged : Merged α} {error : DecodeError}
    (h : Run step value (.ofBytes data) merged) (herror : merged.error = some error) :
    ∃ done rest kept after tag, data = done ++ rest ∧
      Passes step value (.ofBytes done) kept after ∧
      (Reader.ofBytes done).Advanced done.length after ∧
      (Tag.read (.ofBytes rest)).1 = some tag ∧
      (step tag kept (Tag.read (.ofBytes rest)).2).error = some error ∧
      (step tag kept (Tag.read (.ofBytes rest)).2).value = merged.value := by
  obtain ⟨kept, behind, tag, behindTag, hpasses, htag, hfailed, hvalue⟩ := h.passes_of_error herror
  obtain ⟨done, hdelivered, hrepeats⟩ := hpasses.repeats hrepeatable trivial
  obtain ⟨rest, rfl⟩ := hdelivered.next
  obtain ⟨after, hpassesDone, hafter⟩ := hrepeats (.ofBytes done) (Reader.offers_ofBytes done)
  -- behind the records that passed, the reader cannot be told from one of the rest alone
  obtain ⟨hhead, hbehind⟩ := Reader.Simulation.window.alike_readTag
    ⟨[], rest, rfl, hdelivered.view, Reader.view_ofBytes rest⟩
  rw [htag] at hhead hbehind
  have hrecord := hfollows tag kept hbehind
  exact ⟨done, rest, kept, after, tag, rfl, hpassesDone, hafter, hhead.symm,
    hrecord.error_eq.symm.trans hfailed, hrecord.value.symm.trans hvalue.symm⟩

end EngineConsole.Delimited
