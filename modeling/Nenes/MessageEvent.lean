import Nenes.Base.ByteBuf

set_option autoImplicit false

namespace Nenes

open ByteBuf

inductive EventType where
  | connected
  | disconnected
  | fileIn
  | fileOut
  | fileSent
  | fileReceive
deriving DecidableEq, Repr

def EventType.name : EventType → JString
  | .connected => ofString "Connected"
  | .disconnected => ofString "Disconnected"
  | .fileIn => ofString "FileIn"
  | .fileOut => ofString "FileOut"
  | .fileSent => ofString "FileSent"
  | .fileReceive => ofString "FileReceive"

structure MessageEventData where
  eventType : EventType
  publisher : JString
  message : JString
deriving DecidableEq, Repr

-- now is LocalTime.now().toString() at the moment of the call.
def MessageEventData.notificationFormat (data : MessageEventData) (now : JString) : JString :=
  ofString "[" ++ now ++ ofString "] " ++ data.eventType.name ++ ofString " " ++ data.publisher ++ ofString " " ++ data.message

end Nenes
