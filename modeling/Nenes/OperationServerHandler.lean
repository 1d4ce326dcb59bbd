import Nenes.MessageEvent

set_option autoImplicit false

namespace Nenes

open ByteBuf

def opCodeJoin : JString := ofString "OP_JOIN"

def startsWith (s pfx : JString) : Bool := pfx.isPrefixOf s

-- What one channelRead0 call is given: readableBytes() is an int.
structure Chunk where
  bytes : Bytes
  fits : bytes.length < 2 ^ 31

-- The instance fields of the handler, one handler for each connection. The
-- start time is left out: it is only printed.
structure OperationServerHandler where
  headerSize : Int := 0
  headerBody : Option JString := none
  dataSize : Int := 0
  headerRead : Bool := false
  offset : Int := 0
  operationCode : JString := []
  operationData : JString := []
  agentName : JString := []
deriving DecidableEq, Repr

-- Calls on ChannelManager.map and on the event publisher, in program order.
-- The channel put under a key is always the handler's own.
inductive Effect where
  | put (key : JString)
  | remove (key : JString)
  | publishEvent (data : MessageEventData)
deriving DecidableEq, Repr

structure Outcome where
  handler : OperationServerHandler
  effects : List Effect
  threw : Bool
deriving DecidableEq, Repr

namespace OperationServerHandler

def nameOf (data id : JString) : JString := data ++ ofString "(" ++ id ++ ofString ")"

-- id is ctx.channel().id().toString(). The statements of the source are kept
-- in order, so a throwing read leaves the fields assigned before it updated.
def channelRead0 (id : JString) (this : OperationServerHandler) (msg : Chunk) : Outcome :=
  match readInt msg.bytes with
  | none => ⟨this, [], true⟩
  | some (headerSize, buf) =>
      let this := { this with headerSize := headerSize }
      if headerSize ≥ 100 ∨ headerSize < 0 then ⟨this, [], false⟩
      else match readBytes headerSize buf with
        | none => ⟨this, [], true⟩
        | some (header, buf) =>
            let headerBody := toStringUtf8 header
            let this := { this with headerBody := some headerBody }
            match readLong buf with
            | none => ⟨this, [], true⟩
            | some (dataSize, buf) =>
                let this := { this with dataSize := dataSize, headerRead := true }
                if startsWith headerBody opCodeJoin then
                  let this := { this with operationCode := headerBody }
                  let a : Int := buf.length
                  let b := toInt (min (toLong (dataSize - this.offset)) a)
                  match readBytes b buf with
                  | none => ⟨this, [], true⟩
                  | some (data, _) =>
                      let this := { this with
                        operationData := this.operationData ++ toStringUtf8 data
                        offset := toLong (this.offset + b) }
                      if this.offset ≥ dataSize then
                        let this := { this with offset := 0, headerRead := false }
                        let this :=
                          if startsWith headerBody opCodeJoin then
                            { this with agentName := nameOf this.operationData id }
                          else this
                        let effects := [.put this.agentName, .publishEvent ⟨.connected, this.agentName, []⟩]
                        ⟨{ this with operationData := [] }, effects, false⟩
                      else ⟨this, [], false⟩
                else ⟨this, [], false⟩

def channelInactive (this : OperationServerHandler) : Outcome :=
  ⟨this, [.remove this.agentName, .publishEvent ⟨.disconnected, this.agentName, []⟩], false⟩

end OperationServerHandler

end Nenes
