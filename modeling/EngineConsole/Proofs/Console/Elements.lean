import EngineConsole.Proofs.Console.RoundTrip
import EngineConsole.Proofs.Message.Elements

/-!
# Lists of messages on the console link

Tables have rows, configurations have outputs and triggers. Such lists are filled from the line one element at a time, and no element is taken in part.
-/

namespace EngineConsole

namespace MessageType

theorem takes_append_bytes (type : MessageType) (number : Nat) {capacity : Nat}
    {values : List type.Value} {message : type.Value}
    (hwithin : type.format.within message = true) (hroom : values.length < capacity) :
    Merged.Takes (type.format.append number capacity values)
      (Delimited.payload (type.format.bytes message)) (values ++ [type.format.plain message]) := by
  have hformed := type.wellFormed_format
  have hlength : (type.format.bytes message).length ≤ type.format.maxSize := by
    rw [type.format.length_bytes hformed]
    exact type.format.size_le_maxSize hformed hwithin
  exact Delimited.takes_append number type.maxSize_lt hlength hroom
    (type.format.completes_decode hformed hwithin)

/-- For every message type, field number and capacity: what an attempt to append an element to a list does, from any list and any reader, where the element of a success is told only for a source that refuses nothing on its own; what a sequence of attempts on such sources does, some of which may fail; and that an encoding of a message within capacity always joins a list with room, in its plain form and taking exactly its bytes. -/
theorem append_attempted (type : MessageType) (number capacity : Nat) :
    (∀ values reader, type.format.Attempted number capacity values reader
      (type.format.append number capacity values reader)) ∧
    (∀ values readers, (∀ reader ∈ readers, reader.source.supply.Willing) →
      ((type.format.appendEach number capacity values readers).map Merged.value).getLastD values =
        values ++ type.format.elements readers
          (type.format.appendEach number capacity values readers)) ∧
    (∀ values message reader, type.format.within message = true → values.length < capacity →
      reader.Offers (Delimited.payload (type.format.bytes message)) →
      ∃ after, type.format.append number capacity values reader =
          { value := values ++ [type.format.plain message], reader := after } ∧
        reader.Advanced (Delimited.payload (type.format.bytes message)).length after) := by
  refine ⟨type.format.attempted_append number capacity, fun values readers hwilling => ?_,
    fun values message reader hwithin hroom hoffers => ?_⟩
  · exact type.format.getLastD_appendEach number capacity values hwilling
  · exact type.takes_append_bytes number hwithin hroom reader hoffers

end MessageType

namespace TableRow

/-- Rows for a list with room for two: one that is cut off, a whole one, one that declares more than a row can have, an empty one, and one more. -/
def arrivals : List Reader :=
  [[0x06, 0x0a, 0x04, 0x00], [0x06, 0x0a, 0x04, 0x00, 0x00, 0x80, 0x3f], [0x63], [0x00], [0x00]].map
    Reader.ofBytes

/-- What comes of them, as far as it is a failure. -/
example : (format.appendEach 4 2 [] arrivals).map Merged.error =
    [some (.transfer (.endOfData 4 1)), none, some (.lengthExceeded 4 99 98), none,
      some (.capacityExceeded 4 2)] := by decide +kernel

theorem willing_arrivals : ∀ reader ∈ arrivals, reader.source.supply.Willing := by
  intro reader hreader
  obtain ⟨data, -, rfl⟩ := List.mem_map.mp hreader
  trivial

end TableRow

theorem MessageType.append_attempted_rows :
    (∀ values reader, tableRow.format.Attempted 4 2 values reader
      (tableRow.format.append 4 2 values reader)) ∧
    ((tableRow.format.appendEach 4 2 [] TableRow.arrivals).map Merged.value).getLastD [] =
      [{ values := [⟨0x3f800000⟩] }, {}] ∧
    ∃ after, tableRow.format.append 4 2 [{}]
        (.ofBytes (Delimited.payload (tableRow.format.bytes { values := [⟨0x80000000⟩] }))) =
      { value := [{}, { values := [⟨0x80000000⟩] }], reader := after } := by
  obtain ⟨hattempted, heach, hlegal⟩ := append_attempted .tableRow 4 2
  refine ⟨hattempted, ?_, ?_⟩
  · rw [heach [] TableRow.arrivals TableRow.willing_arrivals]
    decide +kernel
  · obtain ⟨after, happend, -⟩ := hlegal [{}] { values := [⟨0x80000000⟩] } _ (by decide) (by decide)
      (Reader.offers_ofBytes _)
    exact ⟨after, happend⟩

end EngineConsole
