import Nenes.FileDispatch
import Nenes.FileTransfer

set_option autoImplicit false

namespace Nenes

open ByteBuf Runs NFileCommand FileTransfer

variable {Ch : Type}

-- The length in a header and the number of body bytes queued after it, once the
-- header's listener has come that far.
def FileTransfer.Stage.lengths : Stage → Option (Nat × Nat)
  | .bodyPending header _ body => some (header.announced, body)
  | .raised header => some (header.announced, 0)
  | .finished header body _ => some (header.announced, body)
  | _ => none

def LengthsAgree (stage : Stage) : Prop := ∀ lengths ∈ stage.lengths, lengths.1 = lengths.2

instance : DecidablePred LengthsAgree := fun stage =>
  inferInstanceAs (Decidable (∀ lengths ∈ stage.lengths, lengths.1 = lengths.2))

-- The length the body is made with is still the announced one; a file that can
-- no longer be opened or measured counts as empty.
def SameLength : Stage → Moment → Prop
  | .reopening header, moment => moment.opens = true ∨ header.announced = 0
  | .remeasuring header _, moment => moment.rafLength.isSome = true ∨ header.announced = 0
  | .sending header _ length, moment =>
      header.announced = if moment.secure then moment.rafLength.getD 0 else length
  | _, _ => True

theorem advance_lengths (fileSent : MessageEventData) (fresh : Nat) (moment : Moment) (stage next : Stage)
    (effects : List StepEffect) (step : Advances fileSent fresh moment stage next effects) (agree : LengthsAgree stage) :
    LengthsAgree next ↔ SameLength stage moment := by
  cases step with
  | reopened header found => simp [LengthsAgree, Stage.lengths, SameLength, found]
  | lost header gone => simp [LengthsAgree, Stage.lengths, SameLength, gone]
  | remeasured header raf length known => simp [LengthsAgree, Stage.lengths, SameLength, known]
  | notRemeasured header raf failed => simp [LengthsAgree, Stage.lengths, SameLength, failed]
  | region header raf length plain => simp [LengthsAgree, Stage.lengths, SameLength, plain]
  | chunked header raf length last secure known => simp [LengthsAgree, Stage.lengths, SameLength, secure, known]
  | notChunked header raf length secure failed => simp [LengthsAgree, Stage.lengths, SameLength, secure, failed]
  | bodyCompleted header raf body => exact ⟨fun _ => trivial, fun _ => agree⟩
  | raised header => exact ⟨fun _ => trivial, fun _ => agree⟩
  | finished header body bodySent => exact ⟨fun _ => trivial, fun _ => agree⟩
  | _ => exact ⟨fun _ => trivial, fun _ => nofun⟩

theorem announced_lengths [FileSystem] (handles : List Nat) (nextHandle : Nat) (actions : List (TransferAction Ch)) :
    Always World.step (EachTransfer LengthsAgree) (World.start handles nextHandle) actions ↔
      Along World.step (Whenever SameLength) (World.start handles nextHandle) actions :=
  each_transfer_run LengthsAgree SameLength nofun advance_lengths handles nextHandle actions

-- The length stands behind the name, in the last eight bytes of the header.
theorem header_announces [FileSystem] (call : Transfer Ch) (header : Header) (fits : header.announced < 2 ^ 63) :
    readLong ((call.headerBytes header).drop (4 + (getBytes (getName call.msg)).length)) = some ((header.announced : Int), []) := by
  have behind : (call.headerBytes header).drop (4 + (getBytes (getName call.msg)).length) = writeLong header.announced := by
    rw [Transfer.headerBytes, initializeProtocol, List.drop_left' (by simp)]
  have read := read_long_write header.announced [] (by omega) (by omega)
  rw [behind]
  simpa using read

-- With a file that stays as it is the steps of a call queue what sendFile and
-- its listener queue.
theorem still_file_program [FileSystem] (handles : List Nat) (nextHandle : Nat) (env : Env Ch) (ch : Ch) (msg element : JString)
    (content : Bytes) (secure : Bool) (next : Program Ch) (reached : target env element = some ch)
    (readable : env.read msg = some content) :
    ∃ call header, (run World.step (World.start handles nextHandle) (.sendFile env msg element ::
        List.replicate 8 (.proceed 0 (Moment.still content.length secure true)))).calls = [call] ∧
      call.stage = .finished header content.length true ∧
      (sendFile msg element next).queued env = (ch, .header, call.headerBytes header) :: next.queued env ∧
      (operationComplete ch msg element).queued env = [(ch, .body, content)] := by
  refine ⟨_, ⟨content.length, true⟩, still_file_sent handles nextHandle env ch msg element content.length secure reached,
    rfl, ?_, ?_⟩
  · rw [skips_queued env _ _ (send_file_present env ch msg element content next reached readable)]
    rfl
  · rw [operationComplete, Program.queued, readable]
    rfl

-- The file has three bytes when its header is written and five when the
-- listener opens it again.
def grownFile : List (TransferAction Nat) :=
  .sendFile sampleEnv (ofString "/w/f") (ofString "a(d53f5b8e)") ::
    (List.replicate 4 (.proceed 0 (Moment.still 3 false true)) ++ List.replicate 4 (.proceed 0 (Moment.still 5 false true)))

open Unix

theorem grown_file_overruns_header :
    ¬ Always World.step (EachTransfer LengthsAgree) (World.start [] 0) grownFile := by
  intro always
  have agree := always_run World.step (EachTransfer LengthsAgree) (World.start [] 0) grownFile always
  revert agree
  decide +kernel

end Nenes
