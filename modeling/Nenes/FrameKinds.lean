import Mathlib.Data.List.Forall2
import Nenes.Base.FrameStream
import Nenes.FileHeaders

set_option autoImplicit false

namespace Nenes

open ByteBuf FrameStream
open Unicode (encodeUtf16 decodeUtf16 decodeUtf8 encode_decode_utf16 decode_encode_utf8)

inductive Sent where
  | operation (msg : JString)
  | file (path : JString) (content : Bytes)
deriving DecidableEq, Repr

-- The name and the data of a frame as they stand in it.
def fieldsWire (fields : Bytes × Bytes) : Bytes := frameHeader fields.1 fields.2.length ++ fields.2

def readFields (bytes : Bytes) : Option ((Bytes × Bytes) × Bytes) :=
  match headerFields bytes with
  | none => none
  | some (name, length, buf) => (readBytes length buf).map fun read => ((name, read.1), read.2)

theorem fields_read_back (name data : Bytes) (short : name.length < 2 ^ 31) (fits : data.length < 2 ^ 63) :
    ReadsBack readFields fieldsWire (name, data) := by
  intro rest
  rw [fieldsWire, List.append_assoc, readFields, header_fields_frame name (data ++ rest) data.length short (by omega) (by omega)]
  simp only [read_bytes_append data rest _ rfl, Option.map_some]

theorem read_fields_nothing : readFields [] = none := by decide +kernel

theorem get_bytes_same (s t : JString) : getBytes s = getBytes t ↔ decodeUtf16 s = decodeUtf16 t := by
  refine ⟨fun same => ?_, fun same => by rw [getBytes, getBytes, same]⟩
  have read := congrArg decodeUtf8 same
  rwa [getBytes, getBytes, decode_encode_utf8, decode_encode_utf8] at read

-- A surrogate that is written as a question mark does not give an operation code.
theorem request_name_bytes (name : JString) :
    getBytes name = getBytes NOperationCommand.opCodeRequest ↔ name = NOperationCommand.opCodeRequest := by
  refine ⟨fun same => ?_, fun same => by rw [same]⟩
  have chars := (get_bytes_same name NOperationCommand.opCodeRequest).mp same
  have plain : '?' ∉ decodeUtf16 NOperationCommand.opCodeRequest := by decide +kernel
  have namePlain : '?' ∉ decodeUtf16 name := by rwa [chars]
  calc name
    _ = encodeUtf16 (decodeUtf16 name) := (encode_decode_utf16 name namePlain).symm
    _ = encodeUtf16 (decodeUtf16 NOperationCommand.opCodeRequest) := congrArg encodeUtf16 chars
    _ = NOperationCommand.opCodeRequest := encode_decode_utf16 _ plain

namespace Sent

def bytes [FileSystem] : Sent → Bytes
  | .operation msg => operationFrame msg
  | .file path content => fileFrame path content

def fields [FileSystem] : Sent → Bytes × Bytes
  | .operation msg => (getBytes NOperationCommand.opCodeRequest, getBytes msg)
  | .file path content => (getBytes (getName path), content)

-- Nothing in a frame says which command wrote it.
def Alike [FileSystem] : Sent → Sent → Prop
  | .operation msg, .operation other => getBytes msg = getBytes other
  | .file path content, .file other data => getBytes (getName path) = getBytes (getName other) ∧ content = data
  | .operation msg, .file path content => getName path = NOperationCommand.opCodeRequest ∧ content = getBytes msg
  | .file path content, .operation msg => getName path = NOperationCommand.opCodeRequest ∧ content = getBytes msg

-- The length of an array is an int, and that of a file a long.
def Sized [FileSystem] : Sent → Prop
  | .operation msg => (getBytes msg).length < 2 ^ 31
  | .file path content => (getBytes (getName path)).length < 2 ^ 31 ∧ content.length < 2 ^ 63

instance [FileSystem] : ∀ sent : Sent, Decidable sent.Sized
  | .operation msg => inferInstanceAs (Decidable ((getBytes msg).length < 2 ^ 31))
  | .file path content => inferInstanceAs (Decidable ((getBytes (getName path)).length < 2 ^ 31 ∧ content.length < 2 ^ 63))

theorem fields_wire [FileSystem] (sent : Sent) : fieldsWire sent.fields = sent.bytes := by
  cases sent with
  | operation msg => rw [bytes, operationFrame, operation_header_frame, fields, fieldsWire]
  | file path content => rw [bytes, fileFrame, file_header_frame, fields, fieldsWire]

theorem sized_reads_back [FileSystem] (sent : Sent) (sized : sent.Sized) : ReadsBack readFields fieldsWire sent.fields := by
  cases sent with
  | operation msg =>
      have fits : (getBytes msg).length < 2 ^ 63 := Nat.lt_trans sized (by decide)
      have code : (getBytes NOperationCommand.opCodeRequest).length < 2 ^ 31 := by decide +kernel
      exact fields_read_back _ _ code fits
  | file path content => exact fields_read_back _ _ sized.1 sized.2

theorem fields_same_iff [FileSystem] (sent other : Sent) : sent.fields = other.fields ↔ sent.Alike other := by
  cases sent with
  | operation msg =>
      cases other with
      | operation text =>
          rw [fields, fields, Alike, Prod.mk.injEq]
          exact and_iff_right rfl
      | file path content =>
          rw [fields, fields, Alike, Prod.mk.injEq, ← request_name_bytes]
          exact and_congr eq_comm eq_comm
  | file path content =>
      cases other with
      | operation text => rw [fields, fields, Alike, Prod.mk.injEq, request_name_bytes]
      | file target data => rw [fields, fields, Alike, Prod.mk.injEq]

end Sent

theorem all_fields_same_iff [FileSystem] (sent other : List Sent) :
    sent.map Sent.fields = other.map Sent.fields ↔ List.Forall₂ Sent.Alike sent other := by
  induction sent generalizing other with
  | nil =>
      cases other with
      | nil => simp
      | cons two others => simp
  | cons one rest ih =>
      cases other with
      | nil => simp
      | cons two others =>
          rw [List.map_cons, List.map_cons, List.cons.injEq, List.forall₂_cons, ih others, Sent.fields_same_iff one two]

-- What was sent is known from the bytes of a channel, but for a file named
-- OP_REQUEST that holds a message, and for the surrogates that getBytes loses.
theorem streams_determine_frames [FileSystem] (sent other : List Sent) (sized : ∀ one ∈ sent, one.Sized)
    (otherSized : ∀ one ∈ other, one.Sized) :
    sent.flatMap Sent.bytes = other.flatMap Sent.bytes ↔ List.Forall₂ Sent.Alike sent other := by
  have wires : ∀ items : List Sent, items.flatMap Sent.bytes = (items.map Sent.fields).flatMap fieldsWire := by
    intro items
    rw [List.flatMap_map]
    exact List.flatMap_congr fun one _ => (Sent.fields_wire one).symm
  have reads : ∀ items : List Sent, (∀ one ∈ items, one.Sized) →
      ∀ fields ∈ items.map Sent.fields, ReadsBack readFields fieldsWire fields := by
    intro items all fields member
    obtain ⟨one, inside, rfl⟩ := List.mem_map.mp member
    exact Sent.sized_reads_back one (all one inside)
  have frames : sent.flatMap Sent.bytes = other.flatMap Sent.bytes ↔ sent.map Sent.fields = other.map Sent.fields := by
    rw [wires sent, wires other]
    refine ⟨fun same => ?_, fun same => by rw [same]⟩
    exact stream_injective readFields fieldsWire _ _ (reads sent sized) (reads other otherSized) read_fields_nothing same
  rw [frames, all_fields_same_iff sent other]

open Unix

theorem request_named_file_confused :
    [Sent.operation (ofString "ls")].flatMap Sent.bytes =
        [Sent.file (ofString "/w/OP_REQUEST") (getBytes (ofString "ls"))].flatMap Sent.bytes ↔
      List.Forall₂ Sent.Alike [.operation (ofString "ls")] [.file (ofString "/w/OP_REQUEST") (getBytes (ofString "ls"))] :=
  streams_determine_frames [.operation (ofString "ls")] [.file (ofString "/w/OP_REQUEST") (getBytes (ofString "ls"))]
    (by decide +kernel) (by decide +kernel)

end Nenes
