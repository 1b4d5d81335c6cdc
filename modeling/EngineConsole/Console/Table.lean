import EngineConsole.Message.Format

/-!
# Lookup tables

Calibration tables over one or two axes. Every list and every name is limited, so that a table fits in storage of fixed size.
-/

namespace EngineConsole

namespace Table

/-- The most bytes in the name of a table or an axis. -/
def nameCapacity : Nat := 24

def valueCapacity : Nat := 24

def rowCapacity : Nat := 24

end Table

structure TableRow where
  values : List Single := []
deriving DecidableEq, Repr, Inhabited

def TableRow.format : Format TableRow :=
  .record "TableRow"
    (.floats 1 "values" Table.valueCapacity .nil)
    (fun row => (row.values, ()))
    (fun (values, _) => { values })
    (fun _ => rfl) (fun _ => rfl)

structure TableAxis where
  name : Option String := none
  values : List Single := []
deriving DecidableEq, Repr, Inhabited

def TableAxis.format : Format TableAxis :=
  .record "TableAxis"
    (.optionalText 1 "name" Table.nameCapacity <|
     .floats 2 "values" Table.valueCapacity <|
     .nil)
    (fun axis => (axis.name, axis.values, ()))
    (fun (name, values, _) => { name, values })
    (fun _ => rfl) (fun _ => rfl)

structure Table1d where
  name : Option String := none
  cols : Option TableAxis := none
  data : Option TableRow := none
deriving DecidableEq, Repr, Inhabited

def Table1d.format : Format Table1d :=
  .record "Table1d"
    (.optionalText 1 "name" Table.nameCapacity <|
     .message 2 "cols" TableAxis.format <|
     .message 3 "data" TableRow.format <|
     .nil)
    (fun table => (table.name, table.cols, table.data, ()))
    (fun (name, cols, data, _) => { name, cols, data })
    (fun _ => rfl) (fun _ => rfl)

structure Table2d where
  name : Option String := none
  cols : Option TableAxis := none
  rows : Option TableAxis := none
  data : List TableRow := []
deriving DecidableEq, Repr, Inhabited

def Table2d.format : Format Table2d :=
  .record "Table2d"
    (.optionalText 1 "name" Table.nameCapacity <|
     .message 2 "cols" TableAxis.format <|
     .message 3 "rows" TableAxis.format <|
     .messages 4 "data" Table.rowCapacity TableRow.format <|
     .nil)
    (fun table => (table.name, table.cols, table.rows, table.data, ()))
    (fun (name, cols, rows, data, _) => { name, cols, rows, data })
    (fun _ => rfl) (fun _ => rfl)

end EngineConsole
