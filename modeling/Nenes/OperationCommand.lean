import Nenes.NFileCommand
import Nenes.NOperationCommand

set_option autoImplicit false

namespace Nenes

open ByteBuf

namespace OperationCommand

variable {Ch : Type}

-- The header and the loop are those of NOperationCommand, word for word.
def initializeProtocol (msg : JString) : Bytes := NOperationCommand.initializeProtocol msg

def sendLoop (msg : JString) (agentNames : List JString) : Program Ch := NOperationCommand.sendLoop msg agentNames

-- Nothing is started here, so watch is a text like any other. The loop over the
-- registry comes first here as well.
def sendCommand (message : Message) : Program Ch :=
  match message.agent, message.msg with
  | some agentNames, some msg => sendLoop msg agentNames
  | _, _ => .done

theorem send_command_missing (message : Message) (missing : message.msg = none ∨ message.agent = none) :
    (sendCommand message : Program Ch) = .done := by
  rw [sendCommand]
  rcases missing with none | none
  · rw [none]
    cases message.agent with
    | none => rfl
    | some agentNames => rfl
  · rw [none]

end OperationCommand

-- The pages that write frames, with what their forms submit. The configuration
-- is the field's when the request is handled.
inductive FrameRequest where
  | operation (message : Message)
  | noperation (message : Message)
  | nfile (conf : Option Configuration) (fileMessage : FileMessage)
deriving DecidableEq, Repr

def FrameRequest.program [FileSystem] {Ch : Type} : FrameRequest → Program Ch
  | .operation message => OperationCommand.sendCommand message
  | .noperation message => NOperationCommand.sendCommand message
  | .nfile conf fileMessage => NFileCommand.sendCommand conf fileMessage

end Nenes
