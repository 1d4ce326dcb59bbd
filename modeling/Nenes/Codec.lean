import Nenes.JoinDecoder
import Nenes.NFileCommand
import Nenes.NOperationCommand

set_option autoImplicit false

namespace Nenes

open ByteBuf
open Unicode (encodeUtf8 encodeUtf16)

-- A Java String without unpaired surrogates: its length is an int.
structure Text where
  chars : List Char
  fits : (encodeUtf16 chars).length < 2 ^ 31

def Text.string (text : Text) : JString := encodeUtf16 text.chars

theorem text_bytes (text : Text) : getBytes text.string = encodeUtf8 text.chars := get_bytes_text text.chars

theorem text_bytes_fit (text : Text) : (getBytes text.string).length < 2 ^ 63 := by
  have fits := text.fits
  have bound := Unicode.encode_utf8_length text.chars
  rw [text_bytes]
  omega

theorem op_code_request_bytes : getBytes NOperationCommand.opCodeRequest = encodeUtf8 "OP_REQUEST".toList :=
  get_bytes_text _

theorem operation_header_frame (msg : JString) :
    NOperationCommand.initializeProtocol msg =
      frameHeader (getBytes NOperationCommand.opCodeRequest) (getBytes msg).length := by
  have length : NOperationCommand.opCodeRequest.length = (getBytes NOperationCommand.opCodeRequest).length := by
    decide +kernel
  rw [NOperationCommand.initializeProtocol, frameHeader, length]

theorem file_header_frame [FileSystem] (msg : JString) (length : Int) :
    NFileCommand.initializeProtocol msg length = frameHeader (getBytes (getName msg)) length := rfl

def decodeFrame (bytes : Bytes) : Option (JString × Int × Bytes × Bytes) :=
  match decodeHeader bytes with
  | none => none
  | some (header, dataSize, buf) =>
      match readBytes dataSize buf with
      | none => none
      | some (data, rest) => some (header, dataSize, data, rest)

theorem decode_frame (header : List Char) (data rest : Bytes) (short : (encodeUtf8 header).length < 100)
    (fits : data.length < 2 ^ 63) :
    decodeFrame (frameHeader (encodeUtf8 header) data.length ++ (data ++ rest)) =
      some (encodeUtf16 header, (data.length : Int), data, rest) := by
  rw [decodeFrame, decode_header_frame _ _ _ short (by omega) (by omega)]
  simp only [read_bytes_append data rest _ rfl, to_string_utf8_text]

-- The bytes of one message, and of one file, in the order they are meant to
-- reach the agent.
def operationFrame (msg : JString) : Bytes := NOperationCommand.initializeProtocol msg ++ getBytes msg

def fileFrame [FileSystem] (path : JString) (content : Bytes) : Bytes :=
  NFileCommand.initializeProtocol path content.length ++ content

theorem decode_operation_frame (msg : Text) (rest : Bytes) :
    decodeFrame (operationFrame msg.string ++ rest) =
      some (NOperationCommand.opCodeRequest, ((encodeUtf8 msg.chars).length : Int), getBytes msg.string, rest) := by
  rw [operationFrame, operation_header_frame, op_code_request_bytes, text_bytes, List.append_assoc]
  exact decode_frame _ _ _ (by decide +kernel) (by rw [← text_bytes]; exact text_bytes_fit msg)

theorem decode_file_frame [FileSystem] (path : JString) (name : List Char) (content rest : Bytes)
    (named : getName path = encodeUtf16 name) (short : (encodeUtf8 name).length ≤ 99) (fits : content.length < 2 ^ 63) :
    decodeFrame (fileFrame path content ++ rest) = some (encodeUtf16 name, (content.length : Int), content, rest) := by
  rw [fileFrame, file_header_frame, named, get_bytes_text, List.append_assoc]
  exact decode_frame name content rest (by omega) fits

theorem sent_frames_decode [FileSystem] :
    (∀ (msg : Text) (rest : Bytes),
      decodeFrame (operationFrame msg.string ++ rest) =
        some (NOperationCommand.opCodeRequest, ((encodeUtf8 msg.chars).length : Int), getBytes msg.string, rest) ∧
      toStringUtf8 (getBytes msg.string) = msg.string) ∧
    (∀ (path : JString) (name : List Char) (content rest : Bytes), getName path = encodeUtf16 name →
      (encodeUtf8 name).length ≤ 99 → content.length < 2 ^ 63 →
        decodeFrame (fileFrame path content ++ rest) =
          some (getName path, (content.length : Int), content, rest)) := by
  constructor
  · intro msg rest
    refine ⟨decode_operation_frame msg rest, ?_⟩
    rw [text_bytes, to_string_utf8_text]
    rfl
  · intro path name content rest named short fits
    rw [named]
    exact decode_file_frame path name content rest named short fits

open Unix

theorem sent_frames_decode_sample :
    (decodeFrame (operationFrame (ofString "ls é") ++ [7]) =
        some (NOperationCommand.opCodeRequest, 5, getBytes (ofString "ls é"), [7]) ∧
      toStringUtf8 (getBytes (ofString "ls é")) = ofString "ls é") ∧
    decodeFrame (fileFrame (ofString "/tmp/a.txt") [1, 2] ++ [7]) = some (getName (ofString "/tmp/a.txt"), 2, [1, 2], [7]) :=
  ⟨sent_frames_decode.1 ⟨['l', 's', ' ', 'é'], by decide +kernel⟩ [7],
    sent_frames_decode.2 (ofString "/tmp/a.txt") ['a', '.', 't', 'x', 't'] [1, 2] [7] (by decide +kernel) (by decide +kernel)
      (by decide)⟩

end Nenes
