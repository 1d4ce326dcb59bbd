import Mathlib.Data.List.Forall2
import Nenes.JoinDecoder

set_option autoImplicit false

namespace Nenes

open ByteBuf OperationServerHandler
open Unicode (encodeUtf8 encodeUtf16)

-- A chunk that starts with a whole frame: the announced length is the number
-- of payload bytes, and anything may follow.
structure WholeFrame where
  header : List Char
  payload : List Char
  trailing : Bytes
  short : (encodeUtf8 header).length < 100
  fits : (frameHeader (encodeUtf8 header) (encodeUtf8 payload).length ++ (encodeUtf8 payload ++ trailing)).length < 2 ^ 31

def WholeFrame.chunk (frame : WholeFrame) : Chunk := ⟨_, frame.fits⟩

def WholeFrame.effects (id : JString) (frame : WholeFrame) : List Effect :=
  if startsWith (encodeUtf16 frame.header) opCodeJoin then
    let name := nameOf (encodeUtf16 frame.payload) id
    [.put name, .publishEvent ⟨.connected, name, []⟩]
  else []

def feed (id : JString) (this : OperationServerHandler) : List Chunk → List Outcome
  | [] => []
  | msg :: rest =>
      let outcome := channelRead0 id this msg
      outcome :: feed id outcome.handler rest

def AtFrameStart (this : OperationServerHandler) : Prop := this.offset = 0 ∧ this.operationData = []

theorem whole_frame_decodes (frame : WholeFrame) :
    decodeHeader frame.chunk.bytes =
      some (encodeUtf16 frame.header, ((encodeUtf8 frame.payload).length : Int), encodeUtf8 frame.payload ++ frame.trailing) := by
  have fits := frame.fits
  rw [List.length_append, List.length_append] at fits
  rw [← to_string_utf8_text frame.header]
  exact decode_header_frame _ _ _ frame.short (by omega) (by omega)

theorem whole_frame_field_fits (frame : WholeFrame) : (encodeUtf8 frame.payload ++ frame.trailing).length < 2 ^ 31 := by
  have fits := frame.fits
  rw [List.length_append] at fits
  omega

theorem whole_frame_returns (id : JString) (this : OperationServerHandler) (frame : WholeFrame) (fresh : AtFrameStart this) :
    (channelRead0 id this frame.chunk).threw = false := by
  refine (channel_read_spec id this frame.chunk).returns _ _ _ (whole_frame_decodes frame) ?_
  intro _ failed
  rw [fresh.1, to_read_exact _ _ (whole_frame_field_fits frame), read_bytes_append _ _ _ rfl] at failed
  cases failed

theorem whole_frame_delivery (frame : WholeFrame) :
    delivery 0 frame.chunk.bytes =
      if startsWith (encodeUtf16 frame.header) opCodeJoin then .joined (encodeUtf8 frame.payload) else .ignored := by
  by_cases join : startsWith (encodeUtf16 frame.header) opCodeJoin = true
  · rw [if_pos join, delivery_joined_iff]
    refine completes_whole_join _ _ _ frame.short ?_ (whole_frame_field_fits frame)
    rw [to_string_utf8_text, join]
  · have unjoined : joinHeader frame.chunk.bytes = none := by
      rw [joinHeader, whole_frame_decodes]
      simp only [if_neg join]
    rw [if_neg join, delivery, unjoined]

theorem whole_frame_read (id : JString) (this : OperationServerHandler) (frame : WholeFrame) (fresh : AtFrameStart this) :
    (channelRead0 id this frame.chunk).effects = frame.effects id ∧
      AtFrameStart (channelRead0 id this frame.chunk).handler := by
  obtain ⟨noOffset, noData⟩ := fresh
  have read := (channel_read_spec id this frame.chunk).refines
  rw [noOffset, whole_frame_delivery] at read
  have after := congrArg Prod.fst read
  have effects := congrArg Prod.snd read
  by_cases join : startsWith (encodeUtf16 frame.header) opCodeJoin = true
  · rw [if_pos join] at after effects
    refine ⟨?_, congrArg Session.offset after, congrArg Session.operationData after⟩
    rw [WholeFrame.effects, if_pos join]
    simpa only [Session.receive, session, noData, List.nil_append, to_string_utf8_text] using effects
  · rw [if_neg join] at after effects
    refine ⟨?_, (congrArg Session.offset after).trans noOffset, (congrArg Session.operationData after).trans noData⟩
    rw [WholeFrame.effects, if_neg join]
    exact effects

theorem whole_frames_read (id : JString) (frames : List WholeFrame) (this : OperationServerHandler)
    (fresh : AtFrameStart this) :
    List.Forall₂ (fun frame outcome => outcome.threw = false ∧ outcome.effects = frame.effects id ∧
      outcome.handler.offset = 0 ∧ outcome.handler.operationData = [])
      frames (feed id this (frames.map WholeFrame.chunk)) := by
  induction frames generalizing this with
  | nil => exact .nil
  | cons frame rest ih =>
      obtain ⟨effects, after⟩ := whole_frame_read id this frame fresh
      exact .cons ⟨whole_frame_returns id this frame fresh, effects, after⟩ (ih _ after)

theorem whole_frames_decode_exactly (id : JString) (frames : List WholeFrame) :
    List.Forall₂ (fun frame outcome => outcome.threw = false ∧ outcome.effects = frame.effects id ∧
      outcome.handler.offset = 0 ∧ outcome.handler.operationData = [])
      frames (feed id {} (frames.map WholeFrame.chunk)) :=
  whole_frames_read id frames {} ⟨rfl, rfl⟩

-- A JOIN with a byte behind it, and a frame of another kind.
def joinAndMore : WholeFrame where
  header := ['O', 'P', '_', 'J', 'O', 'I', 'N']
  payload := ['a']
  trailing := [0]
  short := by decide +kernel
  fits := by decide +kernel

def otherFrame : WholeFrame where
  header := ['O', 'P', '_', 'S', 'E', 'T']
  payload := ['b']
  trailing := []
  short := by decide +kernel
  fits := by decide +kernel

theorem sample_frames_decode :
    List.Forall₂ (fun frame outcome => outcome.threw = false ∧ outcome.effects = frame.effects (ofString "d53f5b8e") ∧
      outcome.handler.offset = 0 ∧ outcome.handler.operationData = [])
      [joinAndMore, otherFrame] (feed (ofString "d53f5b8e") {} ([joinAndMore, otherFrame].map WholeFrame.chunk)) :=
  whole_frames_decode_exactly (ofString "d53f5b8e") [joinAndMore, otherFrame]

end Nenes
