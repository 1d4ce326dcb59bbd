import Nenes.NConfiguration

set_option autoImplicit false

namespace Nenes

open ByteBuf

structure FileMessage where
  fileName : Option JString
  agent : Option (List JString)
  fileList : Option (List JString)
deriving DecidableEq, Repr

-- java.io.File's name is the last one in the pathname's name sequence, or empty.
def getName [FileSystem] (path : JString) : JString :=
  ((path.splitOn separatorChar).filter fun name => name ≠ []).getLast?.getD []

namespace NFileCommand

variable {Ch : Type}

def initializeProtocol [FileSystem] (msg : JString) (length : Int) : Bytes :=
  writeInt (getBytes (getName msg)).length ++ getBytes (getName msg) ++ writeLong length

-- operationComplete of the header's listener. With and without SslHandler the
-- file's bytes are queued; a file that cannot be opened ends the listener.
def operationComplete [FileSystem] (ch : Ch) (msg element : JString) : Program Ch :=
  .read msg fun
    | none => .raise .fileNotFound
    | some content =>
        .writeAndFlush ch .body content (.publishEvent ⟨.fileSent, element, getName msg⟩ .done) .done

-- file.length() is 0 for a file that is gone by then.
def sendFile [FileSystem] (msg element : JString) (next : Program Ch) : Program Ch :=
  .get element fun
    | none => next
    | some ch => .isActive ch fun
        | false => next
        | true => .read msg fun
            | none => next
            | some _ => .read msg fun file =>
                .writeAndFlush ch .header (initializeProtocol msg ((file.map List.length).getD 0 : Nat))
                  (operationComplete ch msg element) next

def sendFiles [FileSystem] (element : JString) (next : Program Ch) : List JString → Program Ch
  | [] => next
  | msg :: rest => sendFile msg element (sendFiles element next rest)

-- String concatenation spells a null directory.
def selectedPath [FileSystem] (workspace : Option JString) (selectedfileName : JString) : JString :=
  workspace.getD (ofString "null") ++ separatorChar :: selectedfileName

def typedFiles (fileMessage : FileMessage) : List JString :=
  match fileMessage.fileName with
  | none => []
  | some fileName => if fileName = [] then [] else [fileName]

-- A missing fileList throws in the first agent's round, after the typed file.
def sendLoop [FileSystem] (workspace : Option JString) (fileMessage : FileMessage) : List JString → Program Ch
  | [] => .done
  | element :: rest =>
      sendFiles element
        (match fileMessage.fileList with
        | none => .raise .nullPointer
        | some fileList =>
            sendFiles element (sendLoop workspace fileMessage rest) (fileList.map (selectedPath workspace)))
        (typedFiles fileMessage)

def sendCommand [FileSystem] (conf : Option Configuration) (fileMessage : FileMessage) : Program Ch :=
  match conf with
  | none => .raise .nullPointer
  | some conf =>
      match fileMessage.agent with
      | none => .done
      | some agentNames => sendLoop conf.fileDirectory fileMessage agentNames

end NFileCommand

end Nenes
