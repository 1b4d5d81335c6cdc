import EngineConsole.Capture.Report
import EngineConsole.Proofs.Capture.Walk

/-!
# What a report says of a payload

The records of a report are the longest run of complete entries at the start of the payload, and what is found behind them determines the stop. The one thing that a report does not show is a last tag that breaks off: then there is no stop, although the entries do not make up the whole payload.
-/

namespace EngineConsole

theorem Walk.ofBytes_of_tiles {data : Bytes} {records : List WalkedRecord}
    (h : Tiles 0 data records) : ofBytes data = ⟨records, none, 0⟩ := by
  obtain ⟨done, rest, used, hdata, htiles, hhalts, htrailing⟩ := ofBytes_tiles data
  have hfree : EntryFree [] := entryFree_of_marked (List.forall_mem_nil _)
  obtain ⟨rfl, hrecords⟩ := h.unique hfree htiles hhalts.entryFree (by rw [List.append_nil, hdata])
  obtain rfl : rest = [] := List.self_eq_append_right.mp hdata
  have hstop : (ofBytes data).stop = none :=
    hhalts.unreported_iff.mpr ⟨Nat.zero_le _, List.forall_mem_nil _⟩
  have htrail : (ofBytes data).trailing = 0 := by omega
  rw [hrecords, ← hstop, ← htrail]

namespace Report

/-! ### The longest run of entries -/

/-- The records of a report tile the payload from its first byte on, and no entry begins where they end, so every other run of entries is a part of theirs. What lies there determines the stop, which names that offset, and the bytes of the last attempt; what is behind these is trailing. Where the records tile the whole payload, the walk over a longer one goes on as it would have begun. -/
theorem walk_longest (data : Bytes) :
    (∃ done rest used, data = done ++ rest ∧ Tiles 0 done (ofBytes data).walk.records ∧
      EntryFree rest ∧
      (∀ part records, part <+: data → Tiles 0 part records →
        part <+: done ∧ records <+: (ofBytes data).walk.records) ∧
      Halts done.length rest (ofBytes data).walk.stop used ∧
      (∀ stop, (ofBytes data).walk.stop = some stop → stop.offset = done.length ∧
        ∃ before after, stop.message = before ++ s!" at offset {done.length}" ++ after) ∧
      (ofBytes data).walk.trailing + (done.length + used) = (ofBytes data).length) ∧
    ∀ more, Tiles 0 data (ofBytes data).walk.records →
      (ofBytes (data ++ more)).walk.records =
        (ofBytes data).walk.records ++ (ofBytes more).walk.records.map (·.shift data.length) := by
  constructor
  · obtain ⟨done, rest, used, hdata, htiles, hhalts, htrailing⟩ := Walk.ofBytes_tiles data
    refine ⟨done, rest, used, hdata, htiles, hhalts.entryFree, ?_, hhalts, ?_, ?_⟩
    · intro part records hpart hrecords
      exact htiles.longest hhalts.entryFree hrecords (hdata ▸ hpart)
    · intro stop hstop
      have hhalts' : Halts done.length rest (some stop) used := hstop ▸ hhalts
      have hoffset := hhalts'.offset_eq
      exact ⟨hoffset, hoffset ▸ stop.message_offset⟩
    · show (Walk.ofBytes data).trailing + (done.length + used) = data.length
      omega
  · intro more htiles
    obtain ⟨done, rest, _, hdata, hdone, hhalts, _⟩ := Walk.ofBytes_tiles (data ++ more)
    obtain ⟨done', rest', _, hmore, hdone', hhalts', _⟩ := Walk.ofBytes_tiles more
    -- both are tilings of the longer payload behind which no entry begins
    have hboth := htiles.append (hdone'.shift data.length)
    have heq : done ++ rest = data ++ done' ++ rest' := by
      rw [← hdata, List.append_assoc, ← hmore]
    exact (hdone.unique hhalts.entryFree hboth hhalts'.entryFree heq).2

/-- Behind one entry a length announces more than there is. -/
theorem walk_longest_cut :
    let whole : Bytes := [0x08, 0x01]
    let cut : Bytes := [0x12, 0x02, 0x41]
    Tiles 0 whole (ofBytes whole).walk.records ∧
    (ofBytes (whole ++ cut)).walk.stop = some (.faultyRecord 2 2 (.lengthBeyondEnd 2 1)) ∧
    (∃ done, whole <+: done ∧ (2 : Nat) = done.length ∧
      (ofBytes whole).walk.records <+: (ofBytes (whole ++ cut)).walk.records) ∧
    (ofBytes (whole ++ cut)).walk.records =
      (ofBytes whole).walk.records ++ (ofBytes cut).walk.records.map (·.shift 2) := by
  intro whole cut
  have hentry : Entry whole 1 (.varint 1) :=
    .mk (Varint.writes_encode 8) (.varint (Varint.writes_encode 1))
  have hwalk : (ofBytes whole).walk.records = [⟨0, 1, .varint 1⟩] := by decide
  have htiles : Tiles 0 whole (ofBytes whole).walk.records := hwalk ▸ .single hentry
  have hstop : (ofBytes (whole ++ cut)).walk.stop =
      some (.faultyRecord 2 2 (.lengthBeyondEnd 2 1)) := by decide
  obtain ⟨done, _, _, _, _, _, hlongest, _, hnamed, _⟩ := (walk_longest (whole ++ cut)).1
  obtain ⟨hwhole, hrecords⟩ := hlongest whole _ (List.prefix_append whole cut) htiles
  exact ⟨htiles, hstop, ⟨done, hwhole, (hnamed _ hstop).1, hrecords⟩,
    (walk_longest whole).2 cut htiles⟩

/-! ### When no stop is reported -/

/-- No stop is reported exactly if the entries leave nothing, or leave at most five bytes that all announce another one: a tag that breaks off there, or one that goes on for too long and ends the payload. -/
theorem stop_eq_none_iff (data : Bytes) :
    (ofBytes data).walk.stop = none ↔
      ∃ done rest, data = done ++ rest ∧ Tiles 0 done (ofBytes data).walk.records ∧
        rest.length ≤ Varint.maxSize ∧ Varint.Marked rest := by
  obtain ⟨done, rest, used, hdata, htiles, hhalts, _⟩ := Walk.ofBytes_tiles data
  have hnone : (ofBytes data).walk.stop = none ↔
      rest.length ≤ Varint.maxSize ∧ Varint.Marked rest := hhalts.unreported_iff
  rw [hnone]
  constructor
  · intro hrest
    exact ⟨done, rest, hdata, htiles, hrest⟩
  · rintro ⟨done', rest', hdata', htiles', hrest'⟩
    obtain ⟨rfl, _⟩ := htiles.unique hhalts.entryFree htiles' (entryFree_of_marked hrest'.2)
      (hdata.symm.trans hdata')
    obtain rfl : rest = rest' := List.append_cancel_left (hdata.symm.trans hdata')
    exact hrest'

/-- One byte is left that begins a tag, and yet no stop is reported. -/
theorem stop_unreported : (ofBytes [0x08, 0x01, 0x85]).walk.stop = none ∧
    ¬ Tiles 0 [0x08, 0x01, 0x85] (ofBytes [0x08, 0x01, 0x85]).walk.records := by
  refine ⟨by decide, ?_⟩
  intro htiles
  have hrecords : (ofBytes [0x08, 0x01, 0x85]).walk.records = [⟨0, 1, .varint 1⟩] := by decide
  rw [hrecords] at htiles
  have hentry : Entry [0x08, 0x01] 1 (.varint 1) :=
    .mk (Varint.writes_encode 8) (.varint (Varint.writes_encode 1))
  have hmarked : Varint.Marked [0x85] := by decide
  obtain ⟨hshort, _⟩ := (Tiles.single hentry).longest (entryFree_of_marked hmarked) htiles
    (List.prefix_refl _)
  have hlength : 3 ≤ 2 := hshort.length_le
  omega

end Report

end EngineConsole
