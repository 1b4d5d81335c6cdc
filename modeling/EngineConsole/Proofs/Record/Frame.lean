import EngineConsole.Proofs.Record.Codec

/-!
# Frames

An encoding seen as a tree: a frame is a record with its tag, and the frames of a message inside it are its content. A delimited frame keeps the length that was declared for it apart from the content, so that it can be said that the two agree, and at which depth.
-/

namespace EngineConsole

/-- A record as it was written. -/
inductive Frame where
  /-- A payload that ends by itself. -/
  | scalar (tag : Tag) (payload : Bytes)
  | blob (number declared : Nat) (content : Bytes)
  /-- A content of further frames behind a declared length. -/
  | message (number declared : Nat) (content : List Frame)

namespace Frame

def tag : Frame → Tag
  | scalar tag _ => tag
  | blob number _ _ => ⟨number, .delimited⟩
  | message number _ _ => ⟨number, .delimited⟩

mutual

def bytes : Frame → Bytes
  | scalar tag payload => Tag.encode tag ++ payload
  | blob number declared content => Delimited.header number declared ++ content
  | message number declared content => Delimited.header number declared ++ bytesAll content

def bytesAll : List Frame → Bytes
  | [] => []
  | frame :: frames => frame.bytes ++ bytesAll frames

end

mutual

def lengths : Frame → List Nat
  | scalar _ _ => []
  | blob _ declared _ => [declared]
  | message _ declared content => declared :: lengthsAll content

def lengthsAll : List Frame → List Nat
  | [] => []
  | frame :: frames => frame.lengths ++ lengthsAll frames

end

mutual

/-- Every declared length, at every depth, is the number of bytes of the content that follows it. -/
def Exact : Frame → Prop
  | scalar _ _ => True
  | blob _ declared content => declared = content.length
  | message _ declared content => declared = (bytesAll content).length ∧ ExactAll content

def ExactAll : List Frame → Prop
  | [] => True
  | frame :: frames => frame.Exact ∧ ExactAll frames

end

def payload : Frame → Bytes
  | scalar _ payload => payload
  | blob _ declared content => Varint.encode (UInt32.ofNat declared) ++ content
  | message _ declared content => Varint.encode (UInt32.ofNat declared) ++ bytesAll content

theorem bytes_eq (frame : Frame) : frame.bytes = Tag.encode frame.tag ++ frame.payload := by
  cases frame with
  | scalar tag payload => rfl
  | blob number declared content => exact List.append_assoc _ _ content
  | message number declared content => exact List.append_assoc _ _ (bytesAll content)

theorem payload_blob {number declared : Nat} {content : Bytes} (h : declared = content.length) :
    (blob number declared content).payload = Delimited.payload content := by
  rw [payload, h, Delimited.payload]

theorem payload_message {number declared : Nat} {content : List Frame}
    (h : declared = (bytesAll content).length) :
    (message number declared content).payload = Delimited.payload (bytesAll content) := by
  rw [payload, h, Delimited.payload]

theorem bytesAll_eq_flatMap (frames : List Frame) : bytesAll frames = frames.flatMap bytes := by
  induction frames with
  | nil => rfl
  | cons frame frames ih => rw [bytesAll, ih, List.flatMap_cons]

@[simp] theorem bytesAll_append (left right : List Frame) :
    bytesAll (left ++ right) = bytesAll left ++ bytesAll right := by
  simp only [bytesAll_eq_flatMap, List.flatMap_append]

theorem bytesAll_singleton (frame : Frame) : bytesAll [frame] = frame.bytes := List.append_nil _

theorem exactAll_iff {frames : List Frame} : ExactAll frames ↔ ∀ frame ∈ frames, frame.Exact := by
  induction frames with
  | nil => simp [ExactAll]
  | cons frame frames ih => simp only [ExactAll, ih, List.forall_mem_cons]

theorem exactAll_append {left right : List Frame} :
    ExactAll (left ++ right) ↔ ExactAll left ∧ ExactAll right := by
  simp only [exactAll_iff, List.forall_mem_append]

/-- A frame takes a byte at least, so there are never more frames than bytes. -/
theorem length_le_length_bytesAll (frames : List Frame) : frames.length ≤ (bytesAll frames).length := by
  induction frames with
  | nil => exact Nat.zero_le _
  | cons frame frames ih =>
    have htag := List.length_pos_iff.mpr (Tag.encode_ne_nil frame.tag)
    simp only [bytesAll, bytes_eq, List.length_append, List.length_cons]
    omega

mutual

theorem le_length_bytes_of_mem_lengths {length : Nat} : (frame : Frame) → frame.Exact →
    length ∈ frame.lengths → length ≤ frame.bytes.length
  | scalar _ _, _, hmem => by simp [lengths] at hmem
  | blob _ declared content, hexact, hmem => by
    rw [lengths, List.mem_singleton] at hmem
    rw [Exact] at hexact
    rw [bytes, List.length_append]
    omega
  | message _ declared content, hexact, hmem => by
    rw [Exact] at hexact
    rw [lengths, List.mem_cons] at hmem
    rw [bytes, List.length_append]
    rcases hmem with rfl | hmem
    -- the length of the frame itself, and one further inside
    · omega
    · have := le_length_bytesAll_of_mem_lengthsAll content hexact.2 hmem
      omega

theorem le_length_bytesAll_of_mem_lengthsAll {length : Nat} : (frames : List Frame) →
    ExactAll frames → length ∈ lengthsAll frames → length ≤ (bytesAll frames).length
  | [], _, hmem => by simp [lengthsAll] at hmem
  | frame :: frames, hexact, hmem => by
    rw [ExactAll] at hexact
    rw [lengthsAll, List.mem_append] at hmem
    rw [bytesAll, List.length_append]
    rcases hmem with hmem | hmem
    · have := le_length_bytes_of_mem_lengths frame hexact.1 hmem
      omega
    · have := le_length_bytesAll_of_mem_lengthsAll frames hexact.2 hmem
      omega

end

end Frame

end EngineConsole
