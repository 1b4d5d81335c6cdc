import EngineConsole.Record.Floats

/-!
# Room in a list

A list is asked for room twice: before an element is read, with a notice if there is none, and when the element is put at its end, without one. Reading an element does not change the list, so the second answer is always the first one again, and a list that refuses an element has said so.
-/

namespace EngineConsole

namespace Delimited

variable {α : Type}

theorem push_of_room (number : Nat) {capacity : Nat} {values : List α} (value : α) (reader : Reader)
    (hroom : values.length < capacity) :
    push number capacity values value reader = { value := values ++ [value], reader } := by
  rw [push, if_pos hroom]

/-- Behind the first look for room, an element that is complete joins the list. -/
theorem append_eq (number capacity greatest : Nat) (fresh : α) (merge : α → Reader → Merged α)
    (values : List α) (reader : Reader) :
    append number capacity greatest fresh merge values reader =
      match Varint.readLength reader with
      | .error error reader => { value := values, reader, error := some (.transfer error) }
      | .ok length reader =>
        if greatest < length then
          { value := values, reader
            notices := [.elementTooLong number length greatest]
            error := some (.lengthExceeded number length greatest) }
        else if capacity ≤ values.length then
          { value := values, reader
            notices := [.listFull number capacity]
            error := some (.capacityExceeded number capacity) }
        else
          let element := mergeSpan merge length fresh reader
          element.map fun value => if element.error.isNone then values ++ [value] else values := by
  rw [append]
  cases Varint.readLength reader with
  | error error behind => rfl
  | ok length behind =>
    simp only
    split
    · rfl
    · split
      · rfl
      · rename_i hroom
        rw [push_of_room number _ _ (Nat.not_le.mp hroom)]
        cases herror : (mergeSpan merge length fresh behind).error with
        | some error => rfl
        | none =>
          simp only [Merged.map, herror, Option.isSome_none, Option.isNone_none, if_true,
            Bool.false_eq_true, if_false]

end Delimited

theorem Floats.mergeUnpacked_eq (number capacity : Nat) (values : List Single) (reader : Reader) :
    mergeUnpacked number capacity values reader =
      if capacity ≤ values.length then
        { value := values, reader
          notices := [.listFull number capacity]
          error := some (.capacityExceeded number capacity) }
      else (Fetched.ofRead Single.read reader).assign values fun value => values ++ [value] := by
  rw [mergeUnpacked]
  split
  · rfl
  · rename_i hroom
    rw [Fetched.ofRead]
    cases Single.read reader with
    | error error after => rfl
    | ok value after => exact Delimited.push_of_room number value after (Nat.not_le.mp hroom)

end EngineConsole
