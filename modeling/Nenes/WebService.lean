import Nenes.FileCommand
import Nenes.JoinGate
import Nenes.OperationCommand

set_option autoImplicit false

namespace Nenes

open ByteBuf OperationServerHandler Server Runs

inductive WebRequest where
  | frames (request : FrameRequest)
  | file (fileMessage : FileMessage)
deriving DecidableEq, Repr

namespace WebRequest

def program [FileSystem] {Ch : Type} (secure : Ch → Bool) : WebRequest → Program Ch
  | .frames request => request.program
  | .file fileMessage => FileCommand.sendCommand secure fileMessage

def agents : WebRequest → List JString
  | .frames (.operation message) => message.agent.getD []
  | .frames (.noperation message) => message.agent.getD []
  | .frames (.nfile _ fileMessage) => fileMessage.agent.getD []
  | .file fileMessage => fileMessage.agent.getD []

def paths [FileSystem] : WebRequest → List JString
  | .frames (.operation _) => []
  | .frames (.noperation _) => []
  | .frames (.nfile conf fileMessage) =>
      NFileCommand.typedFiles fileMessage ++
        (fileMessage.fileList.getD []).map (NFileCommand.selectedPath (workspaceOf conf))
  | .file fileMessage => fileMessage.fileName.toList

def text : WebRequest → Option JString
  | .frames (.operation message) => message.msg
  | .frames (.noperation message) => message.msg
  | _ => none

def header [FileSystem] (request : WebRequest) (msg : JString) (length : Nat) : Bytes :=
  match request with
  | .file _ => FileCommand.initializeProtocol msg length
  | _ => NFileCommand.initializeProtocol msg length

-- FileCommand asks whether the channel is active in a guard that is never true.
def asksActive : WebRequest → Bool
  | .frames _ => true
  | .file _ => false

-- What a request may write: its text's frame, or the header of a file it names
-- and what has been read from that file.
def Carries [FileSystem] (content : JString → Bytes → Prop) (request : WebRequest) : Part → Bytes → Prop
  | .header, buf =>
      (∃ msg, request.text = some msg ∧ buf = NOperationCommand.initializeProtocol msg) ∨
        ∃ path ∈ request.paths, ∃ length, buf = request.header path length
  | .body, buf => (∃ msg, request.text = some msg ∧ buf = getBytes msg) ∨ ∃ path ∈ request.paths, content path buf

end WebRequest

variable {Ch : Type} [DecidableEq Ch]

-- disks holds what the files were at each call of a command.
structure WebService (Ch : Type) where
  server : Server Ch
  active : Ch → Bool
  requests : List WebRequest
  disks : List (JString → Option Bytes)
  pool : Pool Ch

inductive ServiceAction (Ch : Type) where
  | channelActive (c : Ch)
  | channelRead0 (c : Ch) (msg : Chunk)
  | close (c : Ch)
  | channelInactive (c : Ch)
  | request (request : WebRequest)
  | proceed (i : Nat) (files : JString → Option Bytes)

namespace WebService

def start : WebService Ch := ⟨Server.start, fun _ => false, [], [], ⟨[], []⟩⟩

def env (s : WebService Ch) (files : JString → Option Bytes) : Env Ch :=
  ⟨fun element => s.server.map.lookup element, s.active, files⟩

-- A chunk that cannot be read goes to exceptionCaught as well: it writes a String,
-- which no handler of the pipeline encodes, and leaves it to the failed write's
-- listener to close the channel. That is a close of its own, whenever it comes.
def read (id : Ch → JString) (s : WebService Ch) (c : Ch) (msg : Chunk) : WebService Ch :=
  { s with
    server := Server.call id s.server (.channelRead0 c msg)
    pool := { s.pool with log := s.pool.log ++ [.received c msg.bytes] } }

def step [FileSystem] (id : Ch → JString) (secure : Ch → Bool) (s : WebService Ch) : ServiceAction Ch → WebService Ch
  | .channelActive c => { s with active := Function.update s.active c true }
  | .channelRead0 c msg => s.read id c msg
  | .close c => { s with active := Function.update s.active c false }
  | .channelInactive c => { s with server := Server.call id s.server (.channelInactive c) }
  | .request request =>
      { s with
        requests := s.requests ++ [request]
        pool := { s.pool with tasks := s.pool.tasks ++ [⟨s.requests.length, request.program secure⟩] } }
  | .proceed i files => { s with disks := s.disks ++ [files], pool := s.pool.proceed (s.env files) i }

end WebService

end Nenes
