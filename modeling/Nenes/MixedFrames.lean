import Nenes.Base.FrameStream
import Nenes.FileFrames
import Nenes.OperationCommand

set_option autoImplicit false

namespace Nenes

open ByteBuf SplitFrames Runs FrameStream
open Unicode (encodeUtf8 encodeUtf16 decodeUtf16)

-- A frame as the agent has it once it is read.
structure AgentFrame where
  header : JString
  data : Bytes
deriving DecidableEq, Repr

namespace AgentFrame

def parts (frame : AgentFrame) : Frame UInt8 := ⟨frameHeader (getBytes frame.header) frame.data.length, frame.data⟩

def wire (frame : AgentFrame) : Bytes := frame.parts.bytes

-- The header has no unpaired surrogate and passes the size check of a reader.
structure Sound (frame : AgentFrame) : Prop where
  paired : encodeUtf16 (decodeUtf16 frame.header) = frame.header
  short : (getBytes frame.header).length ≤ 99
  fits : frame.data.length < 2 ^ 63

instance (frame : AgentFrame) : Decidable frame.Sound :=
  decidable_of_iff
    (encodeUtf16 (decodeUtf16 frame.header) = frame.header ∧ (getBytes frame.header).length ≤ 99 ∧ frame.data.length < 2 ^ 63)
    ⟨fun parts => ⟨parts.1, parts.2.1, parts.2.2⟩, fun sound => ⟨sound.paired, sound.short, sound.fits⟩⟩

end AgentFrame

def readFrame (bytes : Bytes) : Option (AgentFrame × Bytes) :=
  (decodeFrame bytes).map fun read => (⟨read.1, read.2.2.1⟩, read.2.2.2)

theorem sound_frame_reads_back (frame : AgentFrame) (sound : frame.Sound) : ReadsBack readFrame AgentFrame.wire frame := by
  intro rest
  have decoded := decode_frame (decodeUtf16 frame.header) frame.data rest (Nat.lt_succ_of_le sound.short) sound.fits
  rw [← getBytes, sound.paired] at decoded
  rw [AgentFrame.wire, Frame.bytes, AgentFrame.parts, List.append_assoc, readFrame, decoded]
  rfl

theorem read_frame_nothing : readFrame [] = none := by decide +kernel

theorem concat_parts (frames : List AgentFrame) : concat (frames.map AgentFrame.parts) = frames.flatMap AgentFrame.wire := by
  rw [concat, List.map_map, List.flatMap_def]
  rfl

section Requests

variable {Ch : Type} [DecidableEq Ch]

def operationSends (env : Env Ch) (ch : Ch) (message : Message) : List AgentFrame :=
  (selections env ch message).map fun msg => ⟨NOperationCommand.opCodeRequest, getBytes msg⟩

def opened [FileSystem] (env : Env Ch) (paths : List JString) : List AgentFrame :=
  paths.filterMap fun path => (env.read path).map fun content => ⟨getName path, content⟩

def fileSends [FileSystem] (env : Env Ch) (ch : Ch) (paths agentNames : List JString) : List AgentFrame :=
  (agentNames.filter fun element => target env element = some ch).flatMap fun _ => opened env paths

-- A request without a file list ends in its first agent's round.
def FrameRequest.sends [FileSystem] (env : Env Ch) (ch : Ch) : FrameRequest → List AgentFrame
  | .operation message => operationSends env ch message
  | .noperation message => if message.msg = some (ofString "watch") then [] else operationSends env ch message
  | .nfile none _ => []
  | .nfile (some conf) fileMessage =>
      match fileMessage.fileList with
      | some fileList =>
          fileSends env ch (requestPaths conf.fileDirectory fileMessage fileList) (fileMessage.agent.getD [])
      | none => fileSends env ch (NFileCommand.typedFiles fileMessage) ((fileMessage.agent.getD []).take 1)

theorem operation_sends_parts (env : Env Ch) (ch : Ch) (message : Message) :
    (operationSends env ch message).map AgentFrame.parts = (selections env ch message).map operationParts := by
  rw [operationSends, List.map_map]
  apply List.map_congr_left
  intro msg _
  rw [Function.comp_apply, operationParts, operation_header_frame]
  rfl

omit [DecidableEq Ch] in
theorem opened_parts [FileSystem] (env : Env Ch) (paths : List JString) :
    (opened env paths).map AgentFrame.parts = readable env paths := by
  rw [opened, readable, List.map_filterMap]
  apply List.filterMap_congr
  intro path _
  rw [Option.map_map]
  rfl

theorem file_sends_parts [FileSystem] (env : Env Ch) (ch : Ch) (paths agentNames : List JString) :
    (fileSends env ch paths agentNames).map AgentFrame.parts = filesSent env ch paths agentNames := by
  rw [fileSends, filesSent, List.map_flatMap]
  exact List.flatMap_congr fun _ _ => opened_parts env paths

-- What one request is to the frames on a channel, whatever else is running.
structure Framed (env : Env Ch) (program : Program Ch) (sends : Ch → List AgentFrame) : Prop where
  paired : Paired env program
  free : ∀ ch, bodyDue env ch program = none
  frames : ∀ ch, framesOn env ch program = (sends ch).map AgentFrame.parts

theorem operation_framed (env : Env Ch) (message : Message) :
    Framed env (OperationCommand.sendCommand message) fun ch => operationSends env ch message := by
  by_cases missing : message.msg = none ∨ message.agent = none
  · rw [OperationCommand.send_command_missing message missing]
    refine ⟨trivial, fun _ => rfl, fun ch => ?_⟩
    rw [operation_sends_parts, selections, framesOn]
    rcases missing with none | none
    · rw [none]
      rfl
    · rw [none]
      cases message.msg with
      | none => rfl
      | some msg => rfl
  · obtain ⟨hasText, hasNames⟩ := not_or.mp missing
    obtain ⟨msg, text⟩ := Option.ne_none_iff_exists'.mp hasText
    obtain ⟨agentNames, names⟩ := Option.ne_none_iff_exists'.mp hasNames
    have same : (OperationCommand.sendCommand message : Program Ch) = NOperationCommand.sendLoop msg agentNames := by
      rw [OperationCommand.sendCommand, names, text]
      rfl
    rw [same]
    refine ⟨send_loop_paired env msg agentNames, fun ch => send_loop_due env ch msg agentNames, fun ch => ?_⟩
    rw [send_loop_frames, operation_sends_parts, selections, text, names, List.map_map]
    rfl

theorem noperation_framed [FileSystem] (env : Env Ch) (message : Message) :
    Framed env (NOperationCommand.sendCommand message) fun ch => FrameRequest.sends env ch (.noperation message) := by
  refine ⟨send_command_paired env message, fun ch => send_command_due env ch message, fun ch => ?_⟩
  rw [FrameRequest.sends]
  by_cases watch : message.msg = some (ofString "watch")
  · rw [if_pos watch]
    cases NOperationCommand.send_command_cases Ch message with
    | loops msg _ text other _ _ => exact absurd (Option.some.inj (text.symm.trans watch)) other
    | nothing _ other _ => exact absurd watch other
    | watches _ same =>
        rw [same]
        rfl
  · rw [if_neg watch, operation_sends_parts]
    exact send_command_frames env ch message watch

theorem missing_list_framed [FileSystem] (env : Env Ch) (workspace : Option JString) (fileMessage : FileMessage)
    (missing : fileMessage.fileList = none) (agentNames : List JString) :
    Framed env (NFileCommand.sendLoop workspace fileMessage agentNames) fun ch =>
      fileSends env ch (NFileCommand.typedFiles fileMessage) (agentNames.take 1) := by
  cases agentNames with
  | nil => exact ⟨trivial, fun _ => rfl, fun _ => rfl⟩
  | cons element rest =>
      have round : (NFileCommand.sendLoop workspace fileMessage (element :: rest) : Program Ch) =
          NFileCommand.sendFiles element (.raise .nullPointer) (NFileCommand.typedFiles fileMessage) := by
        rw [NFileCommand.sendLoop, missing]
      rw [round]
      refine ⟨send_files_paired env element _ _ (fun _ => rfl) trivial, fun ch => send_files_due env ch element _ _ rfl,
        fun ch => ?_⟩
      rw [send_files_frames, file_sends_parts, framesOn, List.append_nil, filesSent, List.take_succ_cons, List.take_zero]
      by_cases here : target env element = some ch
      · simp [here]
      · simp [here]

theorem nfile_framed [FileSystem] (env : Env Ch) (conf : Option Configuration) (fileMessage : FileMessage) :
    Framed env (NFileCommand.sendCommand conf fileMessage) fun ch => FrameRequest.sends env ch (.nfile conf fileMessage) := by
  cases conf with
  | none => exact ⟨trivial, fun _ => rfl, fun _ => rfl⟩
  | some conf =>
      have same : (NFileCommand.sendCommand (some conf) fileMessage : Program Ch) =
          NFileCommand.sendLoop conf.fileDirectory fileMessage (fileMessage.agent.getD []) := by
        rw [NFileCommand.sendCommand]
        cases fileMessage.agent with
        | none => rfl
        | some agentNames => rfl
      rw [same]
      cases listed : fileMessage.fileList with
      | none =>
          simp only [FrameRequest.sends, listed]
          exact missing_list_framed env conf.fileDirectory fileMessage listed _
      | some fileList =>
          simp only [FrameRequest.sends, listed]
          refine ⟨file_loop_paired env _ fileMessage fileList listed _,
            fun ch => file_loop_due env ch _ fileMessage fileList listed _, fun ch => ?_⟩
          rw [file_loop_frames env ch _ fileMessage fileList listed, file_sends_parts]

theorem request_framed [FileSystem] (env : Env Ch) (request : FrameRequest) :
    Framed env request.program fun ch => request.sends env ch := by
  cases request with
  | operation message => exact operation_framed env message
  | noperation message => exact noperation_framed env message
  | nfile conf fileMessage => exact nfile_framed env conf fileMessage

def frameRequests [FileSystem] (requests : List FrameRequest) : Pool Ch := Pool.start (requests.map FrameRequest.program)

theorem frame_requests_whole [FileSystem] (env : Env Ch) (ch : Ch) (requests : List FrameRequest) :
    FramesWhole env ch (frameRequests requests) [] := by
  apply frames_whole_start
  · simp only [List.mem_map]
    rintro _ ⟨request, _, rfl⟩
    exact (request_framed env request).paired
  · simp only [List.mem_map]
    rintro _ ⟨request, _, rfl⟩
    exact (request_framed env request).free ch

theorem frame_requests_remaining [FileSystem] (env : Env Ch) (ch : Ch) (requests : List FrameRequest) :
    (remaining env ch (frameRequests requests).tasks).flatten =
      (requests.flatMap fun request => request.sends env ch).map AgentFrame.parts := by
  rw [frameRequests, start_remaining, List.map_map, ← List.flatMap_def, List.map_flatMap]
  exact List.flatMap_congr fun request _ => (request_framed env request).frames ch

-- The channel carries each frame the agent is owed once, whatever pages they come
-- from.
structure FramesSent (env : Env Ch) (ch : Ch) (owed : List AgentFrame) (pool : Pool Ch) : Prop where
  onTheWay : ∃ order : List AgentFrame, order.Subperm owed ∧
    bytesOn ch pool.log ++ (due env ch pool.tasks).flatten = order.flatMap AgentFrame.wire
  finished : pool.Finished → ∃ order : List AgentFrame, order.Perm owed ∧ bytesOn ch pool.log = order.flatMap AgentFrame.wire

-- The agent's own reader is no part of the server: readFrame takes it to read a
-- frame as channelRead0 reads a JOIN, with the same limit on the header.
structure FramesArrive (env : Env Ch) (ch : Ch) (owed : List AgentFrame) (pool : Pool Ch) : Prop where
  onTheWay : ∃ order : List AgentFrame, order.Subperm owed ∧ bytesOn ch pool.log ++ (due env ch pool.tasks).flatten = order.flatMap AgentFrame.wire
  arrived : pool.Finished → ∃ order : List AgentFrame, order.Perm owed ∧
    ∀ fuel, order.length ≤ fuel → readAll readFrame fuel (bytesOn ch pool.log) = (order, [])

theorem frames_sent (env : Env Ch) (ch : Ch) (owed : List AgentFrame) (pool : Pool Ch) (schedule : List Nat)
    (whole : FramesWhole env ch pool []) (owes : (remaining env ch pool.tasks).flatten = owed.map AgentFrame.parts)
    (guarded : Along (Pool.proceed env) (KeepsFramesWhole env ch) pool schedule) :
    FramesSent env ch owed (run (Pool.proceed env) pool schedule) := by
  obtain ⟨mapped, inside, bytes, ends⟩ := frames_in_some_order env ch pool schedule whole guarded
  rw [owes] at inside ends
  refine ⟨?_, fun finished => ?_⟩
  · obtain ⟨order, orderInside, rfl⟩ := subperm_of_map AgentFrame.parts mapped _ inside
    exact ⟨order, orderInside, by rw [bytes, concat_parts]⟩
  · obtain ⟨perm, sent⟩ := ends finished
    obtain ⟨order, orderPerm, rfl⟩ := perm_of_map AgentFrame.parts mapped _ perm _ rfl
    exact ⟨order, orderPerm, by rw [sent, concat_parts]⟩

theorem sent_frames_arrive (env : Env Ch) (ch : Ch) (owed : List AgentFrame) (pool : Pool Ch)
    (sound : ∀ frame ∈ owed, frame.Sound) (sent : FramesSent env ch owed pool) : FramesArrive env ch owed pool := by
  refine ⟨sent.onTheWay, fun finished => ?_⟩
  obtain ⟨order, perm, bytes⟩ := sent.finished finished
  refine ⟨order, perm, fun fuel enough => ?_⟩
  have reads : ∀ frame ∈ order, ReadsBack readFrame AgentFrame.wire frame := fun frame member =>
    sound_frame_reads_back frame (sound frame (perm.mem_iff.mp member))
  have stream := read_all_stream readFrame AgentFrame.wire order [] reads read_frame_nothing fuel enough
  rwa [List.append_nil, ← bytes] at stream

theorem mixed_frames_sent [FileSystem] (env : Env Ch) (ch : Ch) (requests : List FrameRequest) (schedule : List Nat)
    (guarded : Along (Pool.proceed env) (KeepsFramesWhole env ch) (frameRequests requests) schedule) :
    FramesSent env ch (requests.flatMap fun request => request.sends env ch)
      (run (Pool.proceed env) (frameRequests requests) schedule) :=
  frames_sent env ch _ _ schedule (frame_requests_whole env ch requests) (frame_requests_remaining env ch requests) guarded

end Requests

def mixedRequests : List FrameRequest :=
  [.operation (sampleRequest "watch"),
    .nfile (some ⟨some (ofString "/w"), none⟩) ⟨none, some [ofString "a(d53f5b8e)"], some [ofString "f"]⟩]

open Unix

-- The first request is served, then the second one's header and its listener.
theorem mixed_sample_sent :
    FramesSent sampleEnv 0 (mixedRequests.flatMap fun request => request.sends sampleEnv 0)
      (run (Pool.proceed sampleEnv) (frameRequests mixedRequests) [0, 0, 0, 0, 1, 1, 1, 1, 1, 2, 2, 3]) :=
  mixed_frames_sent sampleEnv 0 mixedRequests [0, 0, 0, 0, 1, 1, 1, 1, 1, 2, 2, 3] (by decide +kernel)

end Nenes
