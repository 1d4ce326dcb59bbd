import Nenes.Program

set_option autoImplicit false

namespace Nenes

open ByteBuf

structure Message where
  msg : Option JString
  agent : Option (List JString)
deriving DecidableEq, Repr

namespace NOperationCommand

variable {Ch : Type}

def opCodeRequest : JString := ofString "OP_REQUEST"

def initializeProtocol (msg : JString) : Bytes :=
  writeInt opCodeRequest.length ++ getBytes opCodeRequest ++ writeLong (getBytes msg).length

def sendLoop (msg : JString) : List JString → Program Ch
  | [] => .done
  | element :: rest =>
      .get element fun
        | none => sendLoop msg rest
        | some ch => .isActive ch fun
            | false => sendLoop msg rest
            | true =>
                .writeAndFlush ch .header (initializeProtocol msg) .done
                  (.writeAndFlush ch .body (getBytes msg) .done (sendLoop msg rest))

-- DirWatchService starts its thread when it is created, so service.start()
-- throws and the request ends there. The loop over the registry that comes before
-- the sends is a stage of the page.
def sendCommand (message : Message) : Program Ch :=
  match message.msg with
  | none => .done
  | some msg =>
      if msg = ofString "watch" then .raise .illegalThreadState
      else match message.agent with
        | none => .done
        | some agentNames => sendLoop msg agentNames

inductive Sends (Ch : Type) (message : Message) : Prop where
  | loops (msg : JString) (agentNames : List JString) (text : message.msg = some msg) (other : msg ≠ ofString "watch")
      (names : message.agent = some agentNames) (same : (sendCommand message : Program Ch) = sendLoop msg agentNames)
  | nothing (missing : message.msg = none ∨ message.agent = none) (other : message.msg ≠ some (ofString "watch"))
      (same : (sendCommand message : Program Ch) = .done)
  | watches (text : message.msg = some (ofString "watch"))
      (same : (sendCommand message : Program Ch) = .raise .illegalThreadState)

theorem send_command_cases (Ch : Type) (message : Message) : Sends Ch message := by
  cases text : message.msg with
  | none => exact .nothing (.inl text) (by simp [text]) (by rw [sendCommand, text])
  | some msg =>
      by_cases watch : msg = ofString "watch"
      · have same : (sendCommand message : Program Ch) = .raise .illegalThreadState := by
          rw [sendCommand, text]
          exact if_pos watch
        exact .watches (text.trans (congrArg some watch)) same
      cases names : message.agent with
      | none =>
          have same : (sendCommand message : Program Ch) = .done := by
            simp only [sendCommand, text, if_neg watch, names]
          exact .nothing (.inr names) (by simp [text, watch]) same
      | some agentNames =>
          have same : (sendCommand message : Program Ch) = sendLoop msg agentNames := by
            simp only [sendCommand, text, if_neg watch, names]
          exact .loops msg agentNames text watch names same

end NOperationCommand

end Nenes
