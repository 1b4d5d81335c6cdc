import EngineConsole.Proofs.Message.Descent

/-!
# What a merge reports

A merge reports each tag that it drops and, at the end, the payload that it rejects. A payload is rejected where it is read, deep inside of other messages perhaps, and the failure goes up through the merges around it without another word. So the notices mirror the decisions: those on tags come in the order of the bytes, and there is one more exactly if the merge fails by a rule of the decoder.
-/

namespace EngineConsole

namespace Merged

variable {α : Type} {merged : Merged α} {dropped more : List Tag}

/-- The merge reports the tags that were dropped, in their order, and behind them the payload that was rejected, if one was. -/
def Reports (merged : Merged α) (dropped : List Tag) : Prop :=
  ∃ rejections, merged.notices = dropped.map .unrecognized ++ rejections ∧
    Notice.Tell rejections merged.error

theorem Explained.reports (h : merged.Explained) : merged.Reports [] := ⟨_, rfl, h⟩

theorem Reports.andThen_of_ok {next : α → Reader → Merged α} (h : merged.Reports dropped)
    (herror : merged.error = none) (hnext : (next merged.value merged.reader).Reports more) :
    (merged.andThen next).Reports (dropped ++ more) := by
  obtain ⟨others, hnotices, htell⟩ := h
  obtain ⟨rejections, hmore, hrejections⟩ := hnext
  rw [herror] at htell
  refine ⟨rejections, ?_, ?_⟩
  · simp only [andThen, herror, hnotices, htell.eq_nil, hmore, List.append_nil, List.map_append,
      List.append_assoc]
  · simp only [andThen, herror]
    exact hrejections

/-- A merge that goes on without dropping tags reports the tags that it has reported before. -/
theorem Reports.andThen {next : α → Reader → Merged α} (h : merged.Reports dropped)
    (hnext : ∀ value reader, (next value reader).Explained) :
    (merged.andThen next).Reports dropped := by
  cases herror : merged.error with
  | some error => rwa [andThen_of_error herror]
  | none =>
    rw [← List.append_nil dropped]
    exact h.andThen_of_ok herror (hnext merged.value merged.reader).reports

end Merged

/-- What is skipped behind a submessage is not reported. -/
theorem Opened.reports_merged {opened : Opened} {dropped : List Tag}
    (h : opened.inside.Reports dropped) : opened.merged.Reports dropped :=
  h.andThen Delimited.explained_skipRest

theorem Opened.Decides.reports {α : Type} {opened : Opened} {reader : Reader} {merged : Merged α}
    (hdecides : opened.Decides reader merged) {dropped : List Tag}
    (h : opened.inside.Reports dropped) : merged.Reports dropped := by
  obtain ⟨rejections, hnotices, htell⟩ := Opened.reports_merged h
  refine ⟨rejections, hdecides.notices.trans hnotices, ?_⟩
  rw [hdecides.error]
  exact htell

/-! ### Messages -/

namespace Format

variable {μ : Type}

/-- The tags that a merge drops, in the order of the bytes and from all depths: each was read where the message at hand has no field for it. -/
def dropped (format : Format μ) (message : μ) (reader : Reader) : List Tag :=
  (format.encounters message reader).filterMap Encounter.dropped

/-- The tags that are dropped with one record: its own, or those inside the submessage that it opens. -/
def droppedRecord (format : Format μ) (tag : Tag) (message : μ) (reader : Reader) : List Tag :=
  (if (format.index tag).isSome then [] else [tag]) ++
    (format.opens tag message reader).elim [] fun opened =>
      opened.format.dropped opened.message opened.entrance

theorem dropped_of_read {format : Format μ} {message : μ} {tag : Tag} {reader behindTag : Reader}
    (hread : Tag.read reader = (some tag, behindTag)) :
    let record := format.mergeRecord tag message behindTag
    format.dropped message reader = format.droppedRecord tag message behindTag ++
      if record.error.isNone then format.dropped record.value record.reader else [] := by
  simp only [dropped, encounters_of_read hread, ← List.cons_append, List.filterMap_append]
  congr 1
  · cases hopens : format.opens tag message behindTag with
    | none =>
      rw [droppedRecord, hopens]
      cases (format.index tag).isSome with
      | true => rfl
      | false => rfl
    | some opened =>
      rw [droppedRecord, hopens]
      cases (format.index tag).isSome with
      | true => rfl
      | false => rfl
  · split
    · rfl
    · rfl

theorem reports_mergeRecord (format : Format μ) (tag : Tag) (message : μ) (reader : Reader)
    (hinside : ∀ opened, format.opens tag message reader = some opened →
      opened.inside.Reports (opened.format.dropped opened.message opened.entrance)) :
    (format.mergeRecord tag message reader).Reports (format.droppedRecord tag message reader) := by
  rcases format.record_cases tag message reader with ⟨hindex, hopens, hdropped⟩ | ⟨hindex, hvia⟩
  · rw [hdropped, droppedRecord, hindex, hopens]
    exact ⟨[], rfl, .success⟩
  · rw [droppedRecord, if_pos hindex, List.nil_append]
    cases hopens : format.opens tag message reader with
    | none =>
      rw [hopens] at hvia
      cases hvia with
      | alone explained => exact explained.reports
    | some opened =>
      rw [hopens] at hvia
      cases hvia with
      | inside decides => exact decides.reports (hinside opened hopens)

/-- By induction along the sequence: the records behind one add what they report, unless it fails. -/
theorem reports_merge (format : Format μ) (message : μ) (reader : Reader) :
    (format.merge message reader).Reports (format.dropped message reader) := by
  induction μ, format, message, reader using Format.encounters.induct with
  | case1 μ format message reader after hread =>
    rw [merge_of_ends hread, dropped, encounters_of_ends hread]
    exact ⟨[], rfl, .success⟩
  | case2 μ format message reader tag behindTag hread record ihInside ihOthers =>
    have hrecord := format.reports_mergeRecord tag message behindTag ihInside
    rw [merge_of_read hread, dropped_of_read hread]
    cases herror : record.error with
    | some error =>
      rw [Merged.andThen_of_error herror]
      simp only [Option.isNone_some, Bool.false_eq_true, if_false, List.append_nil]
      exact hrecord
    | none => exact hrecord.andThen_of_ok herror ihOthers

end Format

/-! ### The notices as a whole -/

namespace Merged

variable {α : Type} {merged : Merged α} {dropped : List Tag} {error : DecodeError}

/-- The notices of a merge show what it has decided: which tags it has dropped, and whether it has rejected a payload. -/
structure Mirrored (merged : Merged α) (dropped : List Tag) : Prop where
  /-- A notice of level debug is there exactly if a payload was rejected. -/
  debug : (∃ notice ∈ merged.notices, notice.level = .debug) ↔
    ∃ error, merged.error = some error ∧ error.isRejection = true
  /-- Then it is the only one and the last one, and it is on this payload. -/
  rejected : ∀ error, merged.error = some error → error.isRejection = true →
    ∃ notice, merged.notices = dropped.map .unrecognized ++ [notice] ∧ notice.level = .debug ∧
      notice.Explains error
  /-- If no payload was rejected, there are only the notices on the tags that were dropped. -/
  routine : (∀ error, merged.error = some error → error.isRejection = false) →
    merged.notices = dropped.map .unrecognized
  /-- In either case, these are the notices of level trace. -/
  trace : merged.notices.filter (fun notice => notice.level == .trace) = dropped.map .unrecognized

theorem Reports.notices_of_rejection (h : merged.Reports dropped) (herror : merged.error = some error)
    (hrejection : error.isRejection = true) :
    ∃ notice, merged.notices = dropped.map .unrecognized ++ [notice] ∧ notice.Explains error := by
  obtain ⟨rejections, hnotices, htell⟩ := h
  rw [herror] at htell
  cases htell with
  | failure unrejected => exact absurd (hrejection.symm.trans unrejected) (by decide)
  | rejection explains => exact ⟨_, hnotices, explains⟩

theorem Reports.notices_of_routine (h : merged.Reports dropped)
    (hroutine : ∀ error, merged.error = some error → error.isRejection = false) :
    merged.notices = dropped.map .unrecognized := by
  obtain ⟨rejections, hnotices, htell⟩ := h
  rw [hnotices]
  generalize merged.error = outcome at hroutine htell
  cases htell with
  | success => exact List.append_nil _
  | failure _ => exact List.append_nil _
  | @rejection notice error explains =>
    have hfalse := hroutine error rfl
    exact absurd (explains.isRejection.symm.trans hfalse) (by decide)

theorem level_of_mem_map_unrecognized {notice : Notice}
    (h : notice ∈ dropped.map Notice.unrecognized) : notice.level = .trace := by
  obtain ⟨tag, -, rfl⟩ := List.mem_map.mp h
  rfl

theorem filter_map_unrecognized (dropped : List Tag) :
    (dropped.map Notice.unrecognized).filter (fun notice => notice.level == .trace) =
      dropped.map .unrecognized := by
  apply List.filter_eq_self.mpr
  intro notice hnotice
  rw [level_of_mem_map_unrecognized hnotice]
  rfl

theorem Reports.mirrored (h : merged.Reports dropped) : merged.Mirrored dropped where
  debug := by
    constructor
    · rintro ⟨notice, hnotice, hlevel⟩
      by_cases hroutine : ∀ error, merged.error = some error → error.isRejection = false
      · rw [h.notices_of_routine hroutine] at hnotice
        exact absurd ((level_of_mem_map_unrecognized hnotice).symm.trans hlevel) (by decide)
      · simpa using hroutine
    · rintro ⟨error, herror, hrejection⟩
      obtain ⟨notice, hnotices, hexplains⟩ := h.notices_of_rejection herror hrejection
      refine ⟨notice, ?_, hexplains.level⟩
      rw [hnotices]
      exact List.mem_append_right _ List.mem_cons_self
  rejected := by
    intro error herror hrejection
    obtain ⟨notice, hnotices, hexplains⟩ := h.notices_of_rejection herror hrejection
    exact ⟨notice, hnotices, hexplains.level, hexplains⟩
  routine := h.notices_of_routine
  trace := by
    by_cases hroutine : ∀ error, merged.error = some error → error.isRejection = false
    · rw [h.notices_of_routine hroutine, filter_map_unrecognized]
    · obtain ⟨error, herror, hrejection⟩ : ∃ error, merged.error = some error ∧
          error.isRejection = true := by simpa using hroutine
      obtain ⟨notice, hnotices, hexplains⟩ := h.notices_of_rejection herror hrejection
      have hother : (notice.level == Level.trace) = false := by
        rw [hexplains.level]
        rfl
      rw [hnotices, List.filter_append, filter_map_unrecognized, List.filter_singleton, hother]
      exact List.append_nil _

end Merged

end EngineConsole
