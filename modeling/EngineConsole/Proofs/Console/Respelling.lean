import EngineConsole.Proofs.Console.RoundTrip
import EngineConsole.Proofs.Message.Respelling

/-!
# Tables with unpacked lists

The lists of floats on the console link are the values of the axes and rows of tables. Each of them can be unpacked without a change to what is decoded, except in the rows of a table over two axes: these are elements of a list, whose declared length is limited to that of the longest packed row. A row of up to 19 values stays within that limit when it is unpacked, and a longer one does not.
-/

namespace EngineConsole

/-! ### The rows that become too long -/

/-- The rows of more than 19 values that are unpacked, in the order in which they are written. -/
def Table2d.longRows (forms : Forms) (table : Table2d) : List TableRow :=
  (table.data.zipIdx.filter fun entry =>
    forms [4, entry.2, 1] && 19 < entry.1.values.length).map Prod.fst

/-- The long rows of a table that may be absent and stands in the field of that number. -/
def Forms.longRows (forms : Forms) (number : Nat) (table : Option Table2d) : List TableRow :=
  table.elim [] (Table2d.longRows (forms.inside number))

def Fueling.longRows (forms : Forms) (fueling : Fueling) : List TableRow :=
  forms.longRows 19 fueling.engineTempEnrichment ++ forms.longRows 20 fueling.commandedLambda ++
    forms.longRows 21 fueling.ve ++ forms.longRows 22 fueling.tipinEnrichAmount

def Ignition.longRows (forms : Forms) (ignition : Ignition) : List TableRow :=
  forms.longRows 5 ignition.timing

/-- The long rows of all tables over two axes. Ignition is written before fueling. -/
def Configuration.longRows (forms : Forms) (configuration : Configuration) : List TableRow :=
  configuration.ignition.elim [] (Ignition.longRows (forms.inside 4)) ++
    configuration.fueling.elim [] (Fueling.longRows (forms.inside 5))

/-- The refusal of an unpacked row: each float takes five bytes, and no packed row is longer than 98. -/
def TableRow.tooLong (row : TableRow) : DecodeError :=
  .lengthExceeded 4 (5 * row.values.length) 98

theorem TableRow.length_respell (forms : Forms) (row : TableRow) :
    (Frame.bytesAll (TableRow.format.respell forms row)).length =
      if forms [1] then 5 * row.values.length else TableRow.format.size row := by
  have hrespell : TableRow.format.respell forms row =
      Leaf.respell 1 (forms [1]) (.floats Table.valueCapacity) row.values := List.append_nil _
  have htag : Tag.size 1 + Fixed32.size = 5 := rfl
  rw [hrespell, Leaf.respell]
  split
  · rw [Floats.length_unpacked, htag, Nat.mul_comm]
  · rw [← TableRow.format.length_bytesAll_frames (MessageType.wellFormed_format .tableRow)]
    exact congrArg (fun frames => (Frame.bytesAll frames).length) (List.append_nil _).symm

/-- A row is refused if it is unpacked and has more than 19 values. -/
theorem TableRow.elementErrors_eq {row : TableRow} (hwithin : TableRow.format.within row = true)
    (forms : Forms) :
    Delimited.elementErrors 4 TableRow.format.maxSize
        (Frame.bytesAll (TableRow.format.respell forms row)).length [] =
      if forms [1] && 19 < row.values.length then [row.tooLong] else [] := by
  have hmax : TableRow.format.maxSize = 98 := by decide
  have hsize := TableRow.format.size_le_maxSize (MessageType.wellFormed_format .tableRow) hwithin
  rw [TableRow.length_respell, Delimited.elementErrors, hmax]
  rw [hmax] at hsize
  cases forms [1] with
  | false => simp [hsize]
  | true =>
    have hlong : 98 < 5 * row.values.length ↔ 19 < row.values.length := by omega
    simp [hlong, tooLong]

theorem flatMap_ite_singleton {α β : Type} (p : α → Bool) (f : α → β) (entries : List α) :
    entries.flatMap (fun entry => if p entry then [f entry] else []) =
      (entries.filter p).map f := by
  induction entries with
  | nil => rfl
  | cons entry entries ih =>
    rw [List.flatMap_cons, ih, List.filter_cons]
    split
    · rfl
    · rfl

theorem Table2d.overlong_eq {table : Table2d} (hwithin : Table2d.format.within table = true)
    (forms : Forms) :
    Table2d.format.overlong forms table = (table.longRows forms).map TableRow.tooLong := by
  simp only [Table2d.format, Format.within, Fields.within, Bool.and_eq_true] at hwithin
  obtain ⟨_, hcols, hrows, hdata, _⟩ := hwithin
  simp only [Field.within, Bool.and_eq_true, List.all_eq_true] at hdata
  have hrow : ∀ entry ∈ table.data.zipIdx,
      Delimited.elementErrors 4 TableRow.format.maxSize
          (Frame.bytesAll
            (TableRow.format.respell ((forms.inside 4).inside entry.2) entry.1)).length
          (TableRow.format.overlong ((forms.inside 4).inside entry.2) entry.1) =
        if forms [4, entry.2, 1] && 19 < entry.1.values.length then [entry.1.tooLong] else [] :=
    fun entry hentry =>
      TableRow.elementErrors_eq (hdata.2 entry.1 (List.fst_mem_of_mem_zipIdx hentry)) _
  have hlist :
      (Field.messages 4 "data" Table.rowCapacity TableRow.format).overlong forms table.data =
        (table.longRows forms).map TableRow.tooLong := by
    rw [Field.overlong, List.flatMap_congr hrow, flatMap_ite_singleton, longRows, List.map_map]
    rfl
  simp only [Table2d.format, Format.overlong, Fields.overlong]
  rw [Field.overlong_of_steady _ (by decide) (by decide) forms _ hcols,
    Field.overlong_of_steady _ (by decide) (by decide) forms _ hrows, hlist]
  exact List.append_nil _

theorem Format.elim_overlong_eq {μ : Type} {format : Format μ} {forms : Forms}
    {longRows : μ → List TableRow}
    (h : ∀ message, format.within message = true →
      format.overlong forms message = (longRows message).map TableRow.tooLong)
    {value : Option μ} (hwithin : value.all format.within = true) :
    value.elim [] (format.overlong forms) = (value.elim [] longRows).map TableRow.tooLong := by
  cases value with
  | none => rfl
  | some message => exact h message hwithin

theorem Forms.overlong_eq {table : Option Table2d}
    (hwithin : table.all Table2d.format.within = true) (forms : Forms) (number : Nat) :
    table.elim [] (Table2d.format.overlong (forms.inside number)) =
      (forms.longRows number table).map TableRow.tooLong :=
  Format.elim_overlong_eq (fun _ hwithin => Table2d.overlong_eq hwithin _) hwithin

theorem Fueling.overlong_eq {fueling : Fueling} (hwithin : Fueling.format.within fueling = true)
    (forms : Forms) :
    Fueling.format.overlong forms fueling = (fueling.longRows forms).map TableRow.tooLong := by
  simp only [Fueling.format, Format.within, Fields.within, Bool.and_eq_true] at hwithin
  obtain ⟨_, _, _, _, _, _, _, hcrank, hwidth, hdead, henrichment, hlambda, hve, htipin, hduration,
    _⟩ := hwithin
  simp only [Fueling.format, Format.overlong, Fields.overlong]
  rw [Field.overlong_of_steady _ (by decide) (by decide) forms _ hcrank,
    Field.overlong_of_steady _ (by decide) (by decide) forms _ hwidth,
    Field.overlong_of_steady _ (by decide) (by decide) forms _ hdead,
    Field.overlong_of_steady _ (by decide) (by decide) forms _ hduration]
  simp only [Field.overlong, List.nil_append, List.append_nil]
  rw [forms.overlong_eq henrichment, forms.overlong_eq hlambda, forms.overlong_eq hve,
    forms.overlong_eq htipin, longRows, List.map_append, List.map_append, List.map_append,
    List.append_assoc, List.append_assoc]

theorem Ignition.overlong_eq {ignition : Ignition}
    (hwithin : Ignition.format.within ignition = true) (forms : Forms) :
    Ignition.format.overlong forms ignition = (ignition.longRows forms).map TableRow.tooLong := by
  simp only [Ignition.format, Format.within, Fields.within, Bool.and_eq_true] at hwithin
  obtain ⟨_, _, _, hdwell, htiming, _⟩ := hwithin
  simp only [Ignition.format, Format.overlong, Fields.overlong]
  rw [Field.overlong_of_steady _ (by decide) (by decide) forms _ hdwell]
  simp only [Field.overlong, List.nil_append, List.append_nil]
  exact forms.overlong_eq htiming 5

/-- The tables over two axes stand in two of the parts, and in the others nothing can become too long. -/
theorem Configuration.overlong_eq {configuration : Configuration}
    (hwithin : Configuration.format.within configuration = true) (forms : Forms) :
    Configuration.format.overlong forms configuration =
      (configuration.longRows forms).map TableRow.tooLong := by
  simp only [Configuration.format, Format.within, Fields.within, Bool.and_eq_true] at hwithin
  obtain ⟨houtputs, htriggers, hsensors, hignition, hfueling, hdecoder, hcut, hlight, hboost,
    hdebug, _⟩ := hwithin
  have hignitionRows := Format.elim_overlong_eq
    (fun _ hwithin => Ignition.overlong_eq hwithin (forms.inside 4)) hignition
  have hfuelingRows := Format.elim_overlong_eq
    (fun _ hwithin => Fueling.overlong_eq hwithin (forms.inside 5)) hfueling
  simp only [Configuration.format, Format.overlong, Fields.overlong]
  rw [Field.overlong_of_steady _ (by decide) (by decide) forms _ houtputs,
    Field.overlong_of_steady _ (by decide) (by decide) forms _ htriggers,
    Field.overlong_of_steady _ (by decide) (by decide) forms _ hsensors,
    Field.overlong_of_steady _ (by decide) (by decide) forms _ hdecoder,
    Field.overlong_of_steady _ (by decide) (by decide) forms _ hcut,
    Field.overlong_of_steady _ (by decide) (by decide) forms _ hlight,
    Field.overlong_of_steady _ (by decide) (by decide) forms _ hboost,
    Field.overlong_of_steady _ (by decide) (by decide) forms _ hdebug,
    Field.overlong, Field.overlong, hignitionRows, hfuelingRows, longRows, List.map_append]
  simp only [List.nil_append, List.append_nil]

/-! ### Decoding a table with unpacked lists -/

/-- What decoding a spelling comes to. With no list unpacked the spelling is the encoding. The first of the rows is refused, and where there is none, the message comes back and nothing is left of the bytes. -/
structure Format.Rereads {μ : Type} (format : Format μ) (forms : Forms) (message : μ)
    (longRows : List TableRow) : Prop where
  packed : (∀ path, forms path = false) →
    Frame.bytesAll (format.respell forms message) = format.bytes message
  error : (format.decode (.ofBytes (Frame.bytesAll (format.respell forms message)))).error =
    longRows.head?.map TableRow.tooLong
  whole : longRows = [] →
    let decoded := format.decode (.ofBytes (Frame.bytesAll (format.respell forms message)))
    decoded.value = format.plain message ∧ decoded.reader.unread = 0

theorem MessageType.rereads (type : MessageType) {message : type.Value} {forms : Forms}
    {longRows : List TableRow} (hwithin : type.format.within message = true)
    (hrows : type.format.overlong forms message = longRows.map TableRow.tooLong) :
    type.format.Rereads forms message longRows := by
  have hsmall : 3 * type.format.maxSize < 0x100000000 := by
    cases type <;> decide +kernel
  obtain ⟨herror, hwhole⟩ :=
    type.format.decode_respell type.wellFormed_format hsmall hwithin forms
  rw [hrows] at herror hwhole
  refine ⟨fun h => type.format.bytesAll_respell_of_packed type.wellFormed_format h message, ?_, ?_⟩
  · rw [herror, List.head?_map]
  · rintro rfl
    exact hwhole rfl

/-! ### Tables are plain

Only a single float of implicit presence can lose the sign of a zero, and there is none in a table, nor beside the tables in fueling and ignition. -/

theorem TableRow.plain_format : TableRow.format.plain = id := funext fun _ => rfl

theorem TableAxis.plain_format : TableAxis.format.plain = id := funext fun _ => rfl

theorem CrankEnrichment.plain_format : CrankEnrichment.format.plain = id := funext fun _ => rfl

theorem Table1d.plain_format : Table1d.format.plain = id := by
  funext table
  simp only [Table1d.format, Format.plain, Fields.plain, Field.plain, Leaf.plain,
    TableAxis.plain_format, TableRow.plain_format, Option.map_id, id]

theorem Table2d.plain_format : Table2d.format.plain = id := by
  funext table
  simp only [Table2d.format, Format.plain, Fields.plain, Field.plain, Leaf.plain,
    TableAxis.plain_format, TableRow.plain_format, Option.map_id, List.map_id, id]

theorem Fueling.plain_format : Fueling.format.plain = id := by
  funext fueling
  simp only [Fueling.format, Format.plain, Fields.plain, Field.plain, Leaf.plain,
    Table1d.plain_format, Table2d.plain_format, CrankEnrichment.plain_format, Option.map_id, id]

theorem Ignition.plain_format : Ignition.format.plain = id := by
  funext ignition
  simp only [Ignition.format, Format.plain, Fields.plain, Field.plain, Leaf.plain,
    Table1d.plain_format, Table2d.plain_format, Option.map_id, id]

theorem Configuration.plain_ignition (configuration : Configuration) :
    (Configuration.format.plain configuration).ignition = configuration.ignition := by
  show configuration.ignition.map Ignition.format.plain = configuration.ignition
  rw [Ignition.plain_format, Option.map_id, id]

theorem Configuration.plain_fueling (configuration : Configuration) :
    (Configuration.format.plain configuration).fueling = configuration.fueling := by
  show configuration.fueling.map Fueling.format.plain = configuration.fueling
  rw [Fueling.plain_format, Option.map_id, id]

/-! ### Unpacked lists at every place of a table -/

/-- Whatever lists of floats are unpacked in axes, rows and tables, alone or at any place in the settings, the same axes, rows and tables are decoded, unless a row of more than 19 values is among them that is an element of a table. The first such row is refused for its length. -/
theorem MessageType.rereads_tables (forms : Forms) :
    (∀ axis, TableAxis.format.within axis = true →
      TableAxis.format.Rereads forms axis [] ∧ TableAxis.format.plain axis = axis) ∧
    (∀ row, TableRow.format.within row = true →
      TableRow.format.Rereads forms row [] ∧ TableRow.format.plain row = row) ∧
    (∀ table, Table2d.format.within table = true →
      Table2d.format.Rereads forms table (table.longRows forms) ∧
        Table2d.format.plain table = table) ∧
    (∀ fueling, Fueling.format.within fueling = true →
      Fueling.format.Rereads forms fueling (fueling.longRows forms) ∧
        Fueling.format.plain fueling = fueling) ∧
    (∀ ignition, Ignition.format.within ignition = true →
      Ignition.format.Rereads forms ignition (ignition.longRows forms) ∧
        Ignition.format.plain ignition = ignition) ∧
    ∀ configuration, Configuration.format.within configuration = true →
      Configuration.format.Rereads forms configuration (configuration.longRows forms) ∧
        (Configuration.format.plain configuration).ignition = configuration.ignition ∧
        (Configuration.format.plain configuration).fueling = configuration.fueling := by
  refine ⟨?_, ?_, ?_, ?_, ?_, ?_⟩
  · intro axis hwithin
    exact ⟨tableAxis.rereads hwithin rfl, congrFun TableAxis.plain_format axis⟩
  · intro row hwithin
    exact ⟨tableRow.rereads hwithin rfl, congrFun TableRow.plain_format row⟩
  · intro table hwithin
    exact ⟨table2d.rereads hwithin (Table2d.overlong_eq hwithin forms),
      congrFun Table2d.plain_format table⟩
  · intro fueling hwithin
    exact ⟨MessageType.fueling.rereads hwithin (Fueling.overlong_eq hwithin forms),
      congrFun Fueling.plain_format fueling⟩
  · intro ignition hwithin
    exact ⟨MessageType.ignition.rereads hwithin (Ignition.overlong_eq hwithin forms),
      congrFun Ignition.plain_format ignition⟩
  · intro configuration hwithin
    exact ⟨MessageType.configuration.rereads hwithin (Configuration.overlong_eq hwithin forms),
      configuration.plain_ignition, configuration.plain_fueling⟩

/-- With all lists unpacked, a row of 24 values is decoded alone, one of 19 in the timing of the ignition, and one of 20 in the table of volumetric efficiency is refused. -/
theorem MessageType.rereads_tables_unpacked :
    let forms : Forms := fun _ => true
    let row (count : Nat) : TableRow := ⟨List.replicate count .zero⟩
    let timing : Table2d := { cols := some { values := [⟨0x3f800000⟩] }, data := [row 19] }
    let ignition : Ignition := { timing := some timing }
    let fueling : Fueling := { ve := some { data := [row 19, row 20] } }
    let configuration : Configuration := { ignition := some ignition, fueling := some fueling }
    TableAxis.format.Rereads forms { values := [.zero] } [] ∧
    TableRow.format.Rereads forms (row 24) [] ∧
    Table2d.format.Rereads forms timing [] ∧
    Ignition.format.Rereads forms ignition [] ∧
    Fueling.format.Rereads forms fueling [row 20] ∧
    Configuration.format.Rereads forms configuration [row 20] := by
  intro forms row timing ignition fueling configuration
  obtain ⟨haxes, hrows, htables, hfuelings, hignitions, hconfigurations⟩ := rereads_tables forms
  exact ⟨(haxes _ (by decide)).1, (hrows _ (by decide)).1, (htables timing (by decide)).1,
    (hignitions ignition (by decide)).1, (hfuelings fueling (by decide)).1,
    (hconfigurations configuration (by decide)).1⟩

/-- A row of 20 values in a table: packed it is decoded, and unpacked it is refused. -/
theorem Table2d.unpacked_refused :
    let table : Table2d := { data := [⟨List.replicate 20 .zero⟩] }
    let unpacked : Bytes := [0x22, 100] ++ (List.replicate 20 [0x0d, 0, 0, 0, 0]).flatten
    Table2d.format.within table = true ∧
    Frame.bytesAll (Table2d.format.respell (fun path => path == [4, 0, 1]) table) = unpacked ∧
    (Table2d.format.decode (.ofBytes (Table2d.format.bytes table))).error = none ∧
    (Table2d.format.decode (.ofBytes (Table2d.format.bytes table))).value = table ∧
    (Table2d.format.decode (.ofBytes unpacked)).error = some (.lengthExceeded 4 100 98) := by
  decide +kernel

end EngineConsole
