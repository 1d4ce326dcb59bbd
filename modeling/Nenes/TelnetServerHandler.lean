import Nenes.ChannelManager
import Nenes.RequestThread
import Nenes.NOperationCommand

set_option autoImplicit false

namespace Nenes

open ByteBuf

-- What a method asks of ChannelManager.telnetMap and of its channel, in program
-- order. A write with a listener closes the channel once it has been done.
inductive TelnetEffect where
  | put (key : JString)
  | remove (key : JString)
  | write (text : JString) (listener : Bool)
  | flush
  | close
deriving DecidableEq, Repr

def lineEnd : JString := [13, 10]

namespace TelnetServerHandler

def exceptionCaught : List TelnetEffect := [.close]

-- Without a host name getLocalHost() throws after the put, and the exception
-- comes back to the handler.
def channelActive (id : JString) (hostName : Option JString) (date : JString) : List TelnetEffect :=
  .put id ::
    match hostName with
    | none => exceptionCaught
    | some hostName =>
        [.write (ofString "Welcome to " ++ hostName ++ ofString "!" ++ lineEnd) false,
          .write (ofString "It is " ++ date ++ ofString " now." ++ lineEnd) false, .flush]

-- The lower case of the ASCII letters: no other character has b, y or e for its own.
def toLowerCase (unit : UInt16) : UInt16 := if 65 ≤ unit ∧ unit ≤ 90 then unit + 32 else unit

def isBye (request : JString) : Bool := request.map toLowerCase = ofString "bye"

def response (request : JString) : JString :=
  if request = [] then ofString "Please type something." ++ lineEnd
  else if isBye request then ofString "Have a good day!" ++ lineEnd
  else ofString "Did you say '" ++ request ++ ofString "'?" ++ lineEnd

def channelRead0 (request : JString) : List TelnetEffect := [.write (response request) (isBye request)]

def channelReadComplete : List TelnetEffect := [.flush]

def channelInactive (id : JString) : List TelnetEffect := [.remove id]

end TelnetServerHandler

namespace Command

variable {Ch : Type}

-- The names are looked up in telnetMap. The pipeline's encoder makes the bytes.
def sendLoop (msg : JString) : List JString → Program Ch
  | [] => .done
  | element :: rest =>
      .get element fun
        | none => sendLoop msg rest
        | some ch => .isActive ch fun
            | false => sendLoop msg rest
            | true => .writeAndFlush ch .body (getBytes (msg ++ lineEnd)) .done (sendLoop msg rest)

def sendCommand (message : Message) : Program Ch :=
  match message.agent, message.msg with
  | some agentNames, some msg => sendLoop msg agentNames
  | _, _ => .done

end Command

namespace NCommand

def sendCommand {Ch : Type} (message : Message) : Program Ch := Command.sendCommand message

end NCommand

structure TelnetLine where
  bytes : Bytes
  listener : Bool
  request : Option Nat
deriving DecidableEq, Repr

-- written is what the channel has been given and flushed how much of it a flush
-- has sent.
-- request is none for a text of the handler. connected keeps the channels that
-- have been active.
structure Telnet (Ch : Type) where
  telnetMap : ChannelMap Ch
  active : Ch → Bool
  written : Ch → List TelnetLine
  flushed : Ch → Nat
  connected : List Ch
  requests : List Message
  pool : Pool Ch

inductive TelnetAction (Ch : Type) where
  | channelActive (c : Ch) (hostName : Option JString) (date : JString)
  | channelRead0 (c : Ch) (request : JString)
  | channelReadComplete (c : Ch)
  | exceptionCaught (c : Ch)
  | close (c : Ch)
  | channelInactive (c : Ch)
  | command (message : Message)
  | ncommand (message : Message)
  | proceed (i : Nat)

namespace Telnet

variable {Ch : Type} [DecidableEq Ch]

def start : Telnet Ch := ⟨∅, fun _ => false, fun _ => [], fun _ => 0, [], [], ⟨[], []⟩⟩

def write (s : Telnet Ch) (c : Ch) (line : TelnetLine) : Telnet Ch :=
  { s with written := Function.update s.written c (s.written c ++ [line]) }

def close (s : Telnet Ch) (c : Ch) : Telnet Ch := { s with active := Function.update s.active c false }

-- A flush sends all that is written while the channel is open. Where a line had
-- the listener, that one has run by the end of it.
def flush (s : Telnet Ch) (c : Ch) : Telnet Ch :=
  if s.active c = false then s
  else if (s.written c).any TelnetLine.listener then
    { s.close c with flushed := Function.update s.flushed c (s.written c).length }
  else { s with flushed := Function.update s.flushed c (s.written c).length }

def perform (c : Ch) (s : Telnet Ch) : TelnetEffect → Telnet Ch
  | .put key => { s with telnetMap := s.telnetMap.insert key c }
  | .remove key => { s with telnetMap := s.telnetMap.erase key }
  | .write text listener => s.write c ⟨getBytes text, listener, none⟩
  | .flush => s.flush c
  | .close => s.close c

def handle (s : Telnet Ch) (c : Ch) (effects : List TelnetEffect) : Telnet Ch := effects.foldl (perform c) s

def env (s : Telnet Ch) : Env Ch := ⟨fun element => s.telnetMap.lookup element, s.active, fun _ => none⟩

def send (s : Telnet Ch) : Observation Ch → Telnet Ch
  | .queued n c _ buf => (s.write c ⟨buf, false, some n⟩).flush c
  | _ => s

def accept (s : Telnet Ch) (message : Message) (program : Program Ch) : Telnet Ch :=
  { s with
    requests := s.requests ++ [message]
    pool := { s.pool with tasks := s.pool.tasks ++ [⟨s.requests.length, program⟩] } }

def step (id : Ch → JString) (s : Telnet Ch) : TelnetAction Ch → Telnet Ch
  | .channelActive c hostName date =>
      handle { s with active := Function.update s.active c true, connected := s.connected ++ [c] } c
        (TelnetServerHandler.channelActive (id c) hostName date)
  | .channelRead0 c request => s.handle c (TelnetServerHandler.channelRead0 request)
  | .channelReadComplete c => s.handle c TelnetServerHandler.channelReadComplete
  | .exceptionCaught c => s.handle c TelnetServerHandler.exceptionCaught
  | .close c => s.close c
  | .channelInactive c => s.handle c (TelnetServerHandler.channelInactive (id c))
  | .command message => s.accept message (Command.sendCommand message)
  | .ncommand message => s.accept message (NCommand.sendCommand message)
  | .proceed i =>
      ((s.pool.proceed s.env i).log.drop s.pool.log.length).foldl send { s with pool := s.pool.proceed s.env i }

end Telnet

end Nenes
