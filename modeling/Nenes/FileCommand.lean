import Nenes.NFileCommand

set_option autoImplicit false

namespace Nenes

open ByteBuf

namespace FileCommand

variable {Ch : Type}

-- The length field counts the name's UTF-16 units. getBytes() takes the default
-- charset, which the build sets to UTF-8.
def initializeProtocol [FileSystem] (msg : JString) (length : Int) : Bytes :=
  writeInt (getName msg).length ++ getBytes (getName msg) ++ writeLong length

-- operationComplete of the header's listener. Behind an SslHandler nothing is
-- written; elsewhere the file is queued and left for a later flush.
def operationComplete (secure : Bool) (ch : Ch) (msg : JString) : Program Ch :=
  .read msg fun
    | none => .raise .fileNotFound
    | some content => if secure then .done else .writeAndFlush ch .body content .done .done

-- Without a channel the second half of the guard is evaluated and throws; with
-- one the guard is false, whether the channel is active or not. The text about a
-- file that cannot be opened is a String, which no handler of the pipeline
-- encodes, so its write fails.
def sendFile [FileSystem] (secure : Ch → Bool) (msg element : JString) (next : Program Ch) : Program Ch :=
  .get element fun
    | none => .raise .nullPointer
    | some ch => .read msg fun
        | none => next
        | some _ => .read msg fun file =>
            .writeAndFlush ch .header (initializeProtocol msg ((file.map List.length).getD 0 : Nat))
              (operationComplete (secure ch) ch msg) next

def sendLoop [FileSystem] (secure : Ch → Bool) (fileName : Option JString) : List JString → Program Ch
  | [] => .done
  | element :: rest =>
      match fileName with
      | none => sendLoop secure fileName rest
      | some msg => sendFile secure msg element (sendLoop secure fileName rest)

def sendCommand [FileSystem] (secure : Ch → Bool) (fileMessage : FileMessage) : Program Ch :=
  match fileMessage.agent with
  | none => .done
  | some agentNames => sendLoop secure fileMessage.fileName agentNames

end FileCommand

end Nenes
