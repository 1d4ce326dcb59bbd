import Nenes.ChannelManager

set_option autoImplicit false

namespace Nenes

open ByteBuf

def closeBracket : UInt16 := 93

-- LocalTime.now().toString(): digits, colons and a point, so no bracket.
structure LocalTime where
  text : JString
  plain : closeBracket ∉ text

structure WsHandler (S : Type) where
  sessionSet : S → Bool
  isOpen : S → Bool
  inbox : S → List JString

namespace WsHandler

variable {S : Type} [DecidableEq S]

-- The sends that throw are given for each broadcast; the exception is ignored. A
-- broadcast is one step: no session opens or closes during it, which would end the
-- loop over the HashSet with a ConcurrentModificationException.
def sendMessage (fails : S → Bool) (ws : WsHandler S) (message : JString) : WsHandler S :=
  { ws with
    inbox := fun session =>
      if ws.sessionSet session && ws.isOpen session && !fails session then ws.inbox session ++ [message]
      else ws.inbox session }

def onApplicationEvent (fails : S → Bool) (now : LocalTime) (ws : WsHandler S) (data : MessageEventData) : WsHandler S :=
  ws.sendMessage fails (data.notificationFormat now.text)

def debugText (sessionId : JString) : JString := ofString "[debug] your ws session id : " ++ sessionId

def afterConnectionEstablished (fails : S → Bool) (sessionId : JString) (ws : WsHandler S) (session : S) : WsHandler S :=
  sendMessage fails
    { ws with
      sessionSet := Function.update ws.sessionSet session true
      isOpen := Function.update ws.isOpen session true }
    (debugText sessionId)

-- The container stops the session before it calls the handler.
def close (ws : WsHandler S) (session : S) : WsHandler S :=
  { ws with isOpen := Function.update ws.isOpen session false }

def afterConnectionClosed (ws : WsHandler S) (session : S) : WsHandler S :=
  { ws with sessionSet := Function.update ws.sessionSet session false }

end WsHandler

end Nenes
