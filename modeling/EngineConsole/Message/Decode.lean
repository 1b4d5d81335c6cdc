import EngineConsole.Message.Size

/-!
# Decoding

A message is decoded by merging: each record changes the one field that its tag addresses, and a tag that addresses no field is dropped. A scalar or text replaces what was there, a list grows at its end, a message inside is merged in turn, and the alternative of a choice is merged if it is the chosen one already and starts afresh otherwise.

A message ends where no further tag can be read. A failed merge keeps what the records before the failure have done.
-/

namespace EngineConsole

/-! ### Which field a tag addresses -/

def Leaf.accepts {α : Type} : Leaf α → WireType → Bool
  | .scalar kind, wireType | .optional kind, wireType => wireType == kind.wireType
  | .text _, wireType | .optionalText _, wireType => wireType == .delimited
  | .floats _, wireType => wireType == .delimited || wireType == .fixed32

def Alternatives.accepts {α : Type} : Alternatives α → Tag → Bool
  | .nil, _ => false
  | .signal number _ others, tag => tag == ⟨number, .delimited⟩ || others.accepts tag
  | .scalar number _ kind others, tag => tag == ⟨number, kind.wireType⟩ || others.accepts tag
  | .message number _ _ others, tag => tag == ⟨number, .delimited⟩ || others.accepts tag

def Field.accepts {α : Type} : Field α → Tag → Bool
  | .leaf number _ kind, tag => tag.number == number && kind.accepts tag.wireType
  | .message number _ _, tag => tag == ⟨number, .delimited⟩
  | .messages number _ _ _, tag => tag == ⟨number, .delimited⟩
  | .choice _ alternatives _ _ _ _, tag => alternatives.accepts tag

/-! ### Merging -/

def Leaf.merge {α : Type} (number : Nat) (wireType : WireType) : Leaf α → α → Reader → Merged α
  | .scalar kind, old, reader => (kind.fetch number reader).assign old id
  | .optional kind, old, reader => (kind.fetch number reader).assign old some
  | .text capacity, old, reader => (Text.fetch number capacity reader).assign old id
  | .optionalText capacity, old, reader => (Text.fetch number capacity reader).assign old some
  | .floats capacity, values, reader =>
    if wireType = .fixed32 then Floats.mergeUnpacked number capacity values reader
    else Floats.mergePacked number capacity values reader

/-- Drops a tag that addresses no field. Nothing behind the tag is skipped. -/
def dropTag {α : Type} (tag : Tag) (value : α) (reader : Reader) : Merged α :=
  { value, reader, notices := [.unrecognized tag] }

/-- Takes the records of a message that has no fields: every tag is dropped. -/
def mergeNothing (value : Unit) (reader : Reader) : Merged Unit :=
  Delimited.mergeRecords dropTag (reader.unread + 1) value reader

mutual

def Format.merge {μ : Type} : Format μ → μ → Reader → Merged μ
  | .record _ fields split join _ _, message, reader =>
    (Delimited.mergeRecords fields.merge (reader.unread + 1) (split message) reader).map join

/-- Merges the payload of one record into the field that the tag addresses. -/
def Fields.merge {α : Type} : Fields α → Tag → α → Reader → Merged α
  | .nil, tag, value, reader => dropTag tag value reader
  | .cons field others, tag, (value, values), reader =>
    if field.accepts tag then (field.merge tag value reader).map fun value => (value, values)
    else (others.merge tag values reader).map fun values => (value, values)

def Field.merge {α : Type} : Field α → Tag → α → Reader → Merged α
  | .leaf number _ kind, tag, value, reader => kind.merge number tag.wireType value reader
  | .message _ _ format, _, value, reader =>
    Delimited.mergeOptional format.default format.merge value reader
  | .messages number _ capacity format, _, values, reader =>
    Delimited.append number capacity format.maxSize format.default format.merge values reader
  | .choice _ alternatives split join _ _, tag, value, reader =>
    (alternatives.merge tag (value.map split) reader).map fun chosen =>
      (chosen.map join).or value

/-- Merges the payload of one record into the alternative that the tag addresses, and returns the alternative as the new choice. There is none while nothing was chosen: an alternative without payload and a scalar are chosen only when they have been read, a message before its payload is. -/
def Alternatives.merge {α : Type} : Alternatives α → Tag → Option α → Reader → Merged (Option α)
  | .nil, _, _, reader => { value := none, reader }
  | .signal number _ others, tag, chosen, reader =>
    if tag == ⟨number, .delimited⟩ then
      let merged := Delimited.merge mergeNothing () reader
      merged.map fun _ => if merged.error.isNone then some (.inl ()) else none
    else (others.merge tag (chosen.bind Sum.getRight?) reader).map (Option.map .inr)
  | .scalar number _ kind others, tag, chosen, reader =>
    if tag == ⟨number, kind.wireType⟩ then
      (kind.fetch number reader).assign none fun value => some (.inl value)
    else (others.merge tag (chosen.bind Sum.getRight?) reader).map (Option.map .inr)
  | .message number _ format others, tag, chosen, reader =>
    if tag == ⟨number, .delimited⟩ then
      let start := (chosen.bind Sum.getLeft?).getD format.default
      (Delimited.merge format.merge start reader).map fun message => some (.inl message)
    else (others.merge tag (chosen.bind Sum.getRight?) reader).map (Option.map .inr)

end

namespace Format

variable {μ : Type}

def decode (format : Format μ) (reader : Reader) : Merged μ := format.merge format.default reader

def mergeOptional (format : Format μ) (value : Option μ) (reader : Reader) : Merged (Option μ) :=
  Delimited.mergeOptional format.default format.merge value reader

def append (format : Format μ) (number capacity : Nat) (values : List μ) (reader : Reader) :
    Merged (List μ) :=
  Delimited.append number capacity format.maxSize format.default format.merge values reader

def ofBytes? (format : Format μ) (data : Bytes) : Except DecodeError μ :=
  let merged := format.decode (.ofBytes data)
  match merged.error with
  | some error => .error error
  | none => .ok merged.value

end Format

end EngineConsole
