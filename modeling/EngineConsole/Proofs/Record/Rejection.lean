import EngineConsole.Proofs.Record.Obstruction

/-!
# Rejected payloads

A payload that is at fault by a rule of the decoder is rejected, with one notice on it; what cannot be read, or is no text, makes a merge fail without a word. Wherever a payload is fetched or merged, the notices and the error tell the same story.
-/

namespace EngineConsole

/-! ### Failures and notices -/

/-- True of the rejections: a list or a text would exceed its capacity, an element declares more than any can have, or there is no such variant. Bytes that are missing or are no text make a merge fail without being rejected. -/
def DecodeError.isRejection : DecodeError → Bool
  | .capacityExceeded .. | .lengthExceeded .. | .unknownVariant .. => true
  | .transfer _ | .invalidText _ => false

/-- The notice is the one on the payload that was rejected with the error. -/
inductive Notice.Explains : Notice → DecodeError → Prop where
  | listFull (number capacity : Nat) :
      Explains (.listFull number capacity) (.capacityExceeded number capacity)
  | textTooLong (number length capacity : Nat) :
      Explains (.textTooLong number length capacity) (.capacityExceeded number capacity)
  | elementTooLong (number length greatest : Nat) :
      Explains (.elementTooLong number length greatest) (.lengthExceeded number length greatest)
  | unknownVariant (number value : Nat) :
      Explains (.unknownVariant number value) (.unknownVariant number value)

theorem Notice.Explains.isRejection {notice : Notice} {error : DecodeError}
    (h : notice.Explains error) : error.isRejection = true := by
  cases h with
  | _ => rfl

theorem Notice.Explains.level {notice : Notice} {error : DecodeError} (h : notice.Explains error) :
    notice.level = .debug := by
  cases h with
  | _ => rfl

/-- The notices say of a payload that it was rejected, if it was, and nothing else. -/
inductive Notice.Tell : List Notice → Option DecodeError → Prop where
  | success : Tell [] none
  | failure {error : DecodeError} (unrejected : error.isRejection = false) : Tell [] (some error)
  | rejection {notice : Notice} {error : DecodeError} (explains : notice.Explains error) :
      Tell [notice] (some error)

theorem Notice.Tell.eq_nil {notices : List Notice} (h : Tell notices none) : notices = [] := by
  cases h with
  | success => rfl

/-! ### Fetching -/

namespace Fetched

variable {α β : Type}

def error (fetched : Fetched α) : Option DecodeError :=
  match fetched.result with
  | .ok _ => none
  | .error error => some error

/-- What was fetched is accounted for by its notices. -/
def Explained (fetched : Fetched α) : Prop := Notice.Tell fetched.notices fetched.error

theorem explained_ofRead (op : Read α) (reader : Reader) : (ofRead op reader).Explained := by
  rw [ofRead]
  cases op reader with
  | ok value after => exact .success
  | error error after => exact .failure rfl

end Fetched

theorem Scalar.explained_fetch {α : Type} (scalar : Scalar α) (number : Nat) (reader : Reader) :
    (scalar.fetch number reader).Explained := by
  cases scalar with
  | uint32 => exact Fetched.explained_ofRead Varint.read reader
  | fixed32 => exact Fetched.explained_ofRead Fixed32.read reader
  | float => exact Fetched.explained_ofRead Single.read reader
  | bool => exact Fetched.explained_ofRead Varint.readFlag reader
  | enum enumeration =>
    rw [fetch, recognize, Fetched.ofRead]
    cases Varint.read reader with
    | error error after => exact .failure rfl
    | ok value after =>
      simp only
      split
      · exact .success
      · exact .rejection (.unknownVariant number value.toNat)

theorem Text.explained_fetch (number capacity : Nat) (reader : Reader) :
    (fetch number capacity reader).Explained := by
  rw [fetch]
  cases Varint.readLength reader with
  | error error after => exact .failure rfl
  | ok length behind =>
    simp only
    split
    · exact .rejection (.textTooLong number length capacity)
    · rw [interpret, Fetched.ofRead]
      cases Reader.read length behind with
      | error error after => exact .failure rfl
      | ok bytes after =>
        simp only
        split
        · exact .success
        · exact .failure rfl

/-! ### Merging -/

namespace Merged

variable {α β : Type}

/-- The outcome is accounted for by the notices, none of which is on a tag. -/
def Explained (merged : Merged α) : Prop := Notice.Tell merged.notices merged.error

theorem Explained.map {merged : Merged α} (h : merged.Explained) (f : α → β) :
    (merged.map f).Explained := h

theorem explained_assign {fetched : Fetched α} (h : fetched.Explained) (old : β) (place : α → β) :
    (fetched.assign old place).Explained := by
  rw [Fetched.Explained, Fetched.error] at h
  rw [Fetched.assign]
  split
  · rename_i value hresult
    rwa [hresult] at h
  · rename_i error hresult
    rwa [hresult] at h

theorem Explained.andThen {merged : Merged α} {next : α → Reader → Merged α} (h : merged.Explained)
    (hnext : ∀ value reader, (next value reader).Explained) : (merged.andThen next).Explained := by
  cases herror : merged.error with
  | some error => rwa [andThen_of_error herror]
  | none =>
    rw [Explained, herror] at h
    simp only [Explained, Merged.andThen, herror, h.eq_nil, List.nil_append]
    exact hnext merged.value merged.reader

end Merged

namespace Floats

/-- A float is refused by a full list before it is read, never afterwards. -/
theorem explained_mergeUnpacked (number capacity : Nat) (values : List Single) (reader : Reader) :
    (mergeUnpacked number capacity values reader).Explained := by
  rw [mergeUnpacked_eq]
  split
  · exact .rejection (.listFull number capacity)
  · exact Merged.explained_assign (Fetched.explained_ofRead Single.read reader) values _

theorem explained_fill (number capacity fuel : Nat) (values : List Single) (reader : Reader) :
    (fill number capacity fuel values reader).Explained := by
  induction fuel generalizing values reader with
  | zero => exact .success
  | succ fuel ih =>
    rw [fill]
    split
    · exact .success
    · exact (explained_mergeUnpacked number capacity values reader).andThen ih

theorem explained_mergePacked (number capacity : Nat) (values : List Single) (reader : Reader) :
    (mergePacked number capacity values reader).Explained := by
  rw [mergePacked]
  cases Varint.readLength reader with
  | error error behind => exact .failure rfl
  | ok length behind => exact explained_fill number capacity length values (behind.enter length)

end Floats

theorem Delimited.explained_skipRest {α : Type} (value : α) (reader : Reader) :
    (skipRest value reader).Explained :=
  Merged.explained_assign (Fetched.explained_ofRead Reader.skipSpan reader) value _

end EngineConsole
