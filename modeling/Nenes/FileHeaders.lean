import Nenes.Codec
import Nenes.FileCommand

set_option autoImplicit false

namespace Nenes

open ByteBuf
open Unicode (encodeUtf8 encodeUtf16 decodeUtf16)

-- The fields in the order a decoder reads them: the name by its length, then the
-- length of the data.
def headerFields (bytes : Bytes) : Option (Bytes × Int × Bytes) :=
  match readInt bytes with
  | none => none
  | some (nameSize, buf) =>
      match readBytes nameSize buf with
      | none => none
      | some (name, buf) => (readLong buf).map fun read => (name, read.1, read.2)

structure WritesSameHeader [FileSystem] (msg : JString) (length : Int) : Prop where
  same : FileCommand.initializeProtocol msg length = NFileCommand.initializeProtocol msg length
  found : ∀ content, headerFields (FileCommand.initializeProtocol msg length ++ content) =
    some (getBytes (getName msg), length, content)

-- An unpaired surrogate counts as the question mark that is written for it.
def AsciiName [FileSystem] (msg : JString) : Prop := ∀ c ∈ decodeUtf16 (getName msg), c.toNat < 0x80

theorem name_lengths (name : JString) :
    name.length ≤ (getBytes name).length ∧ (getBytes name).length ≤ 3 * name.length ∧
      (name.length = (getBytes name).length ↔ ∀ c ∈ decodeUtf16 name, c.toNat < 0x80) := by
  have longer := Unicode.encode_utf16_length (decodeUtf16 name)
  have bound := Unicode.encode_utf8_length (decodeUtf16 name)
  have same := Unicode.encode_same_length (decodeUtf16 name)
  rw [Unicode.encode_decode_utf16_length] at longer bound same
  exact ⟨longer, bound, same⟩

theorem header_fields_frame (name content : Bytes) (length : Int) (short : name.length < 2 ^ 31)
    (low : -2 ^ 63 ≤ length) (high : length < 2 ^ 63) :
    headerFields (frameHeader name length ++ content) = some (name, length, content) := by
  rw [frame_header_append, headerFields, read_int_write _ _ (by omega) (by omega)]
  simp only [read_bytes_append name _ _ rfl, read_long_write length content low high, Option.map_some]

theorem same_header_iff [FileSystem] (msg : JString) (length : Int) (short : (getName msg).length < 2 ^ 31) :
    FileCommand.initializeProtocol msg length = NFileCommand.initializeProtocol msg length ↔ AsciiName msg := by
  obtain ⟨longer, bound, ascii⟩ := name_lengths (getName msg)
  rw [FileCommand.initializeProtocol, NFileCommand.initializeProtocol, List.append_assoc, List.append_assoc,
    List.append_left_inj, write_int_same, AsciiName, ← ascii]
  -- The difference of the two counts is too small to be lost in an int.
  omega

theorem file_headers_agree [FileSystem] (msg : JString) (length : Int) (short : (getName msg).length < 2 ^ 31)
    (low : -2 ^ 63 ≤ length) (high : length < 2 ^ 63) : WritesSameHeader msg length ↔ AsciiName msg := by
  have same := same_header_iff msg length short
  refine ⟨fun writes => same.mp writes.same, fun ascii => ⟨same.mpr ascii, fun content => ?_⟩⟩
  have counted := (name_lengths (getName msg)).2.2.mpr ascii
  rw [same.mpr ascii, file_header_frame]
  exact header_fields_frame _ content length (by omega) low high

open Unix

theorem plain_name_headers_agree : WritesSameHeader (ofString "/w/f") 3 ↔ AsciiName (ofString "/w/f") :=
  file_headers_agree (ofString "/w/f") 3 (by decide +kernel) (by decide) (by decide)

theorem accented_name_headers_differ : ¬ WritesSameHeader (ofString "/w/é") 3 := by
  intro writes
  have same := writes.same
  revert same
  decide +kernel

end Nenes
