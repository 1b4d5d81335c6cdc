import EngineConsole.Proofs.Message.Descent
import EngineConsole.Proofs.Number.Spelling

/-!
# What a merge leaves unread

A merge ends where no further tag can be read, and it does not say why none could. There are two reasons. Nothing is left, be it of the data or of the span, or the bytes at hand announce one byte after the other until there are too many of them for a number. So a merge that reports success has either seen everything or stopped right behind such bytes, and the same is true of each submessage on the way: otherwise the rest of its span could not have been skipped.
-/

namespace EngineConsole

theorem Merged.error_andThen_eq_none {α : Type} {first : Merged α} {next : α → Reader → Merged α}
    (h : (first.andThen next).error = none) :
    first.error = none ∧ (next first.value first.reader).error = none := by
  cases herror : first.error with
  | some error =>
    rw [andThen_of_error herror, herror] at h
    cases h
  | none =>
    rw [andThen, herror] at h
    exact ⟨rfl, h⟩

/-! ### Why no tag can be read -/

namespace Reader

variable {reader middle after : Reader}

theorem Reaches.supply (h : reader.Reaches after) : after.source.supply = reader.source.supply := by
  obtain ⟨count, hadvanced⟩ := h
  exact hadvanced.supply

/-- The way to `after` ends with an attempt to read a tag that has taken as many bytes as a number can have, every one of which announces another one. -/
def BreaksOff (reader after : Reader) : Prop :=
  ∃ front last announced, reader.Delivered front last ∧ Tag.read last = (none, after) ∧
    last.Delivered announced after ∧ announced.length = Varint.maxSize ∧ Varint.Marked announced

theorem offers_or_ends (hwilling : reader.source.supply.Willing) :
    (∃ byte, reader.Offers [byte]) ∨ reader.Ends 0 := by
  cases hrest : reader.source.rest with
  | nil => exact .inr (.inl (by rw [unread, hrest, List.length_nil]))
  | cons byte rest =>
    by_cases hspan : 0 ∈ reader.spans
    · exact .inr (.inr hspan)
    · refine .inl ⟨byte, hwilling, ?_, fun left hleft => ?_⟩
      · rw [hrest]
        exact List.prefix_append [byte] rest
      · apply Nat.pos_of_ne_zero
        rintro rfl
        exact hspan hleft

end Reader

namespace Varint

variable {reader after : Reader} {error : TransferError}

/-- Groups that cannot be read end with the bytes at hand, or as many as were allowed all announce another one. -/
theorem ends_or_marked_of_readGroups {count : Nat} (hwilling : reader.source.supply.Willing)
    (h : readGroups count reader = .error error after) :
    after.Ends 0 ∨ ∃ announced, reader.Delivered announced after ∧ announced.length = count ∧
      Marked announced := by
  induction count generalizing reader error with
  | zero =>
    cases h
    exact .inr ⟨[], .refl _, rfl, List.forall_mem_nil _⟩
  | succ count ih =>
    simp only [readGroups, bind, EStateM.bind] at h
    rcases Reader.offers_or_ends hwilling with ⟨byte, hoffers⟩ | hends
    · obtain ⟨middle, hbyte, hmiddle⟩ := Read.yields_readByte byte reader hoffers
      rw [hbyte] at h
      by_cases hsmall : byte.toNat < 128
      · simp only [if_pos hsmall] at h
        cases h
      · simp only [if_neg hsmall, EStateM.bind] at h
        cases hgroups : readGroups count middle with
        | ok high after =>
          rw [hgroups] at h
          cases h
        | error error after =>
          rw [hgroups] at h
          cases h
          refine (ih (hmiddle.supply ▸ hwilling) hgroups).imp id ?_
          rintro ⟨announced, hdelivered, hlength, hmarked⟩
          have hfirst : reader.Delivered [byte] middle := ⟨hoffers.next, hmiddle⟩
          refine ⟨byte :: announced, hfirst.trans hdelivered, congrArg (· + 1) hlength, ?_⟩
          exact List.forall_mem_cons.mpr ⟨Nat.not_lt.mp hsmall, hmarked⟩
    · obtain ⟨refusal, behind, hread, hbehind⟩ := Reader.read_of_ends hends Nat.one_pos
      simp only [Reader.readByte, bind, EStateM.bind, hread] at h
      cases h
      exact .inl (hends.advance hbehind)

end Varint

theorem Tag.ends_or_marked_of_read {reader after : Reader}
    (hwilling : reader.source.supply.Willing) (h : read reader = (none, after)) :
    after.Ends 0 ∨ ∃ announced, reader.Delivered announced after ∧
      announced.length = Varint.maxSize ∧ Varint.Marked announced := by
  rw [read, Varint.read] at h
  simp only [bind, EStateM.bind] at h
  cases hgroups : Varint.readGroups Varint.maxSize reader with
  | ok value middle =>
    rw [hgroups] at h
    cases h
  | error error middle =>
    rw [hgroups] at h
    cases h
    exact Varint.ends_or_marked_of_readGroups hwilling hgroups

theorem Delimited.Run.stops {α : Type} {step : Tag → α → Reader → Merged α}
    (hmoves : ∀ tag value, Merged.Moves (step tag value)) {value : α} {reader : Reader}
    {merged : Merged α} (h : Run step value reader merged) (herror : merged.error = none) :
    ∃ last, reader.Reaches last ∧ Tag.read last = (none, merged.reader) := by
  induction h with
  | stop head => exact ⟨_, .refl _, head⟩
  | fail head failed => exact absurd (herror.symm.trans failed) (Option.some_ne_none _).symm
  | @next value reader behindTag tag others head done _ ih =>
    obtain ⟨last, hlast, hstop⟩ := ih herror
    have hbehindTag := Tag.read_moves reader
    rw [head] at hbehindTag
    exact ⟨last, hbehindTag.trans ((hmoves tag value behindTag).trans hlast), hstop⟩

/-! ### The message and the submessages -/

namespace Format

variable {μ : Type}

theorem ends_or_breaksOff (format : Format μ) {message : μ} {reader : Reader}
    (hwilling : reader.source.supply.Willing)
    (herror : (format.merge message reader).error = none) :
    (format.merge message reader).reader.Ends 0 ∨
      reader.BreaksOff (format.merge message reader).reader := by
  cases format with
  | record name fields split join join_split split_join =>
    obtain ⟨records, hrun, hmerged⟩ :=
      (record name fields split join join_split split_join).complete_merge message reader
    rw [hmerged] at herror ⊢
    obtain ⟨last, hlast, hstop⟩ := hrun.stops fields.moves_merge herror
    obtain ⟨count, hadvanced⟩ := hlast
    refine (Tag.ends_or_marked_of_read (hadvanced.supply ▸ hwilling) hstop).imp id ?_
    rintro ⟨announced, hdelivered, hlength, hmarked⟩
    exact ⟨_, last, announced, hadvanced.delivered, hstop, hdelivered, hlength, hmarked⟩

end Format

namespace Opened

variable {opened : Opened}

theorem error_inside (h : opened.merged.error = none) : opened.inside.error = none := by
  have hskipped : (opened.inside.andThen Delimited.skipRest).error = none := h
  exact (Merged.error_andThen_eq_none hskipped).1

/-- Where nothing is left at the end of a submessage, it is its own span that is used up: the rest of it has been skipped, so there was as much as that. -/
theorem spanLeft_of_ends (h : opened.merged.error = none) (hends : opened.inside.reader.Ends 0) :
    opened.inside.reader.spanLeft = 0 := by
  obtain ⟨count, hinside⟩ := opened.format.moves_merge opened.message opened.entrance
  have hwhole : opened.behind.Advanced opened.length opened.merged.reader :=
    Delimited.advanced_of_mergeSpan (opened.format.moves_merge _) h
  have hleft : opened.inside.reader.spanLeft = opened.length - count := hinside.spanLeft
  have hunread : opened.inside.reader.unread + count = opened.behind.unread := hinside.unread
  have hheld := hwhole.held
  rcases hends with hnone | hspan
  · omega
  · have hspans : opened.inside.reader.spans = opened.entrance.spans.map (· - count) := hinside.spans
    rw [hspans] at hspan
    obtain ⟨left, hmem, hused⟩ := List.mem_map.mp hspan
    rcases List.mem_cons.mp hmem with rfl | hmem
    · exact hleft.trans hused
    · have hallowed := hwhole.allowed left hmem
      omega

theorem spanLeft_or_breaksOff (hwilling : opened.behind.source.supply.Willing)
    (h : opened.merged.error = none) :
    opened.inside.reader.spanLeft = 0 ∨ opened.entrance.BreaksOff opened.inside.reader :=
  have hentrance : opened.entrance.source.supply.Willing := hwilling
  (opened.format.ends_or_breaksOff hentrance (error_inside h)).imp (spanLeft_of_ends h) id

end Opened

namespace Format

variable {μ : Type}

/-- A submessage that is met behind a tag is inside the one that the record opens, or behind the record. -/
theorem mem_encounters_iff {format : Format μ} {message : μ} {tag : Tag}
    {reader behindTag : Reader} {opened : Opened}
    (hread : Tag.read reader = (some tag, behindTag)) :
    let record := format.mergeRecord tag message behindTag
    .submessage opened ∈ format.encounters message reader ↔
      (∃ outer, format.opens tag message behindTag = some outer ∧
        .submessage opened ∈ outer.encounters) ∨
      (record.error = none ∧
        .submessage opened ∈ format.encounters record.value record.reader) := by
  rw [encounters_of_read hread, List.mem_cons, or_iff_right nofun, List.mem_append]
  apply or_congr
  · cases format.opens tag message behindTag with
    | none => simp
    | some outer => simp
  · split
    · rename_i hnone
      simp [Option.isNone_iff_eq_none.mp hnone]
    · rename_i hsome
      simp [mt Option.isNone_iff_eq_none.mpr hsome]

/-- By induction along the sequence: a merge succeeds only if every submessage on the way does, and all of them are read from the one source. -/
theorem submessage_succeeds {format : Format μ} {message : μ} {reader : Reader} {opened : Opened}
    (hmem : .submessage opened ∈ format.encounters message reader)
    (h : (format.merge message reader).error = none) :
    opened.merged.error = none ∧ opened.behind.source.supply = reader.source.supply := by
  induction μ, format, message, reader using Format.encounters.induct with
  | case1 μ format message reader after hread =>
    rw [encounters_of_ends hread] at hmem
    cases hmem
  | case2 μ format message reader tag behindTag hread record ihInside ihOthers =>
    rw [merge_of_read hread] at h
    obtain ⟨hrecord, hothers⟩ := Merged.error_andThen_eq_none h
    have hbehindTag : behindTag.source.supply = reader.source.supply := by
      have hreaches := Tag.read_moves reader
      rw [hread] at hreaches
      exact hreaches.supply
    rcases (mem_encounters_iff hread).mp hmem with ⟨outer, hopens, hmem⟩ | ⟨-, hmem⟩
    · have hdecides := decides_of_opens hopens
      have houter : outer.merged.error = none := hdecides.error.symm.trans hrecord
      have hbehind : outer.behind.source.supply = reader.source.supply :=
        hdecides.reached.supply.trans hbehindTag
      rcases List.mem_cons.mp hmem with hself | hmem
      · cases hself
        exact ⟨houter, hbehind⟩
      · obtain ⟨hsucceeds, hsupply⟩ := ihInside outer hopens hmem (Opened.error_inside houter)
        exact ⟨hsucceeds, hsupply.trans hbehind⟩
    · obtain ⟨hsucceeds, hsupply⟩ := ihOthers hmem hothers
      have hbehind := (format.moves_mergeRecord tag message behindTag).supply
      exact ⟨hsucceeds, hsupply.trans (hbehind.trans hbehindTag)⟩

/-- A merge of `data` in which nothing is left over silently. -/
structure Thorough (format : Format μ) (message : μ) (data : Bytes) : Prop where
  /-- The merge has read all of the data, or an endless tag has stopped it. -/
  whole : (format.merge message (.ofBytes data)).reader.unread = 0 ∨
    (Reader.ofBytes data).BreaksOff (format.merge message (.ofBytes data)).reader
  /-- Each submessage has been merged without a failure, and this merge has read all of the span, or an endless tag in the span has stopped it. -/
  inside : ∀ opened, .submessage opened ∈ format.encounters message (.ofBytes data) →
    opened.inside.error = none ∧
      (opened.inside.reader.spanLeft = 0 ∨ opened.entrance.BreaksOff opened.inside.reader)

theorem thorough_of_succeeds {format : Format μ} {message : μ} {data : Bytes}
    (h : (format.merge message (.ofBytes data)).error = none) : format.Thorough message data where
  whole := by
    have hwilling : (Reader.ofBytes data).source.supply.Willing := trivial
    refine (format.ends_or_breaksOff hwilling h).imp (fun hends => ?_) id
    rcases hends with hnone | hspan
    · exact hnone
    · rw [format.spans_merge_ofBytes] at hspan
      cases hspan
  inside := by
    intro opened hmem
    obtain ⟨hsucceeds, hsupply⟩ := submessage_succeeds hmem h
    have hwilling : opened.behind.source.supply.Willing := by
      rw [hsupply]
      trivial
    exact ⟨Opened.error_inside hsucceeds, Opened.spanLeft_or_breaksOff hwilling hsucceeds⟩

end Format

theorem Delimited.Run.error_of_dropTag {α : Type} {value : α} {reader : Reader} {merged : Merged α}
    (h : Run dropTag value reader merged) : merged.error = none := by
  induction h with
  | stop head => rfl
  | fail head failed => cases failed
  | next head done _ ih => exact ih

theorem error_merge_emptyFormat (reader : Reader) : (emptyFormat.merge () reader).error = none := by
  rw [merge_emptyFormat]
  exact (Delimited.run_mergeRecords dropTag_moves (Nat.lt_succ_self reader.unread)).error_of_dropTag

end EngineConsole
