import Nenes.WsHandler

set_option autoImplicit false

namespace Nenes

open ByteBuf OperationServerHandler Server Runs

variable {Ch S : Type} [DecidableEq Ch] [DecidableEq S]

structure Monitor (Ch S : Type) where
  server : Server Ch
  ws : WsHandler S

inductive Happening (Ch S : Type) where
  | call (action : Call Ch) (now : LocalTime) (fails : S → Bool)
  | fileSent (publisher message : JString) (now : LocalTime) (fails : S → Bool)
  | fileIn (publisher message : JString) (now : LocalTime) (fails : S → Bool)
  | afterConnectionEstablished (session : S) (sessionId : JString) (fails : S → Bool)
  | close (session : S)
  | afterConnectionClosed (session : S)

namespace Monitor

def start : Monitor Ch S := ⟨Server.start, ⟨fun _ => false, fun _ => false, fun _ => []⟩⟩

def published (before after : Server Ch) : List (MessageEvent Ch) := after.events.drop before.events.length

def step (id : Ch → JString) (m : Monitor Ch S) : Happening Ch S → Monitor Ch S
  | .call action now fails =>
      let server := Server.call id m.server action
      ⟨server, (published m.server server).foldl (fun ws event => ws.onApplicationEvent fails now event.data) m.ws⟩
  | .fileSent publisher message now fails =>
      { m with ws := m.ws.onApplicationEvent fails now ⟨.fileSent, publisher, message⟩ }
  | .fileIn publisher message now fails =>
      { m with ws := m.ws.onApplicationEvent fails now ⟨.fileIn, publisher, message⟩ }
  | .afterConnectionEstablished session sessionId fails =>
      { m with ws := m.ws.afterConnectionEstablished fails sessionId session }
  | .close session => { m with ws := m.ws.close session }
  | .afterConnectionClosed session => { m with ws := m.ws.afterConnectionClosed session }

end Monitor

-- What a page makes of a text: the part after the time, then the name between
-- the event's word and the blank before the empty message.
def afterTime (text : JString) : Option JString :=
  let rest := text.dropWhile fun unit => unit ≠ closeBracket
  if startsWith text (ofString "[") ∧ startsWith rest (ofString "] ") then some (rest.drop 2) else none

def nameAfter (word body : JString) : Option JString :=
  let rest := body.drop word.length
  if startsWith body word ∧ rest.getLast? = some 32 then some rest.dropLast else none

def readText (keys : Finset JString) (text : JString) : Finset JString :=
  match afterTime text with
  | none => keys
  | some body =>
      match nameAfter (ofString "Connected ") body with
      | some name => insert name keys
      | none =>
          match nameAfter (ofString "Disconnected ") body with
          | some name => keys.erase name
          | none => keys

def replay (texts : List JString) : Finset JString := texts.foldl readText ∅

theorem starts_with_append (word rest : JString) : startsWith (word ++ rest) word = true := by
  rw [startsWith, List.isPrefixOf_iff_prefix]
  exact List.prefix_append _ _

theorem starts_with_other (first other : UInt16) (word rest : JString) (different : first ≠ other) :
    startsWith (other :: rest) (first :: word) = false := by
  rw [startsWith, List.isPrefixOf]
  simp [different]

theorem name_after_word (word name : JString) : nameAfter word (word ++ (name ++ [32])) = some name := by
  simp [nameAfter, starts_with_append]

theorem name_after_other (first other : UInt16) (word rest : JString) (different : first ≠ other) :
    nameAfter (first :: word) (other :: rest) = none := by
  simp [nameAfter, starts_with_other first other word rest different]

def notificationBody (data : MessageEventData) : JString :=
  data.eventType.name ++ ofString " " ++ data.publisher ++ ofString " " ++ data.message

-- The first closing bracket is the one after the time, whatever the publisher
-- and the message hold.
theorem after_time_notification (data : MessageEventData) (now : LocalTime) :
    afterTime (data.notificationFormat now.text) = some (notificationBody data) := by
  have open_ : ofString "[" = [91] := by decide +kernel
  have close : ofString "] " = [closeBracket, 32] := by decide +kernel
  have split : data.notificationFormat now.text = (91 :: now.text) ++ (closeBracket :: 32 :: notificationBody data) := by
    simp [MessageEventData.notificationFormat, notificationBody, open_, close]
  have dropped : (data.notificationFormat now.text).dropWhile (fun unit => unit ≠ closeBracket) =
      closeBracket :: 32 :: notificationBody data := by
    rw [split, List.dropWhile_append_of_pos]
    · simp
    · intro unit member
      rw [decide_eq_true_eq]
      rcases List.mem_cons.mp member with rfl | inside
      · decide
      · rintro rfl
        exact now.plain inside
  rw [afterTime, dropped, split, open_, close]
  simp [startsWith]

def connectedText (name : JString) : MessageEventData := ⟨.connected, name, []⟩
def disconnectedText (name : JString) : MessageEventData := ⟨.disconnected, name, []⟩

theorem connected_body (name : JString) :
    notificationBody (connectedText name) = ofString "Connected " ++ (name ++ [32]) := by
  have word : EventType.name .connected ++ ofString " " = ofString "Connected " := by decide +kernel
  have blank : ofString " " = [32] := by decide +kernel
  rw [notificationBody, connectedText, word, blank, List.append_nil, List.append_assoc]

theorem disconnected_body (name : JString) :
    notificationBody (disconnectedText name) = ofString "Disconnected " ++ (name ++ [32]) := by
  have word : EventType.name .disconnected ++ ofString " " = ofString "Disconnected " := by decide +kernel
  have blank : ofString " " = [32] := by decide +kernel
  rw [notificationBody, disconnectedText, word, blank, List.append_nil, List.append_assoc]

theorem connected_word : ∃ tail, ofString "Connected " = 67 :: tail := ⟨(ofString "Connected ").tail, by decide +kernel⟩

theorem disconnected_word : ∃ tail, ofString "Disconnected " = 68 :: tail :=
  ⟨(ofString "Disconnected ").tail, by decide +kernel⟩

theorem read_connected (keys : Finset JString) (name : JString) (now : LocalTime) :
    readText keys ((connectedText name).notificationFormat now.text) = insert name keys := by
  simp only [readText, after_time_notification, connected_body, name_after_word]

theorem read_disconnected (keys : Finset JString) (name : JString) (now : LocalTime) :
    readText keys ((disconnectedText name).notificationFormat now.text) = keys.erase name := by
  have other : nameAfter (ofString "Connected ") (ofString "Disconnected " ++ (name ++ [32])) = none := by
    obtain ⟨word, connected⟩ := connected_word
    obtain ⟨tail, disconnected⟩ := disconnected_word
    rw [connected, disconnected]
    exact name_after_other 67 68 word _ (by decide)
  simp only [readText, after_time_notification, disconnected_body, other, name_after_word]

theorem read_ignored (keys : Finset JString) (text : JString) (first : UInt16) (rest : JString)
    (body : afterTime text = some (first :: rest)) (notConnected : (67 : UInt16) ≠ first) (notDisconnected : (68 : UInt16) ≠ first) :
    readText keys text = keys := by
  obtain ⟨connected, connectedEq⟩ := connected_word
  obtain ⟨disconnected, disconnectedEq⟩ := disconnected_word
  simp only [readText, body, connectedEq, disconnectedEq, name_after_other _ _ _ _ notConnected,
    name_after_other _ _ _ _ notDisconnected]

theorem read_file_event (keys : Finset JString) (data : MessageEventData) (now : LocalTime)
    (file : data.eventType = .fileSent ∨ data.eventType = .fileIn) :
    readText keys (data.notificationFormat now.text) = keys := by
  have word : data.eventType.name = 70 :: data.eventType.name.tail := by
    rcases file with sent | in_
    · rw [sent]
      decide +kernel
    · rw [in_]
      decide +kernel
  have body : notificationBody data = 70 :: (data.eventType.name.tail ++ ofString " " ++ data.publisher ++ ofString " " ++
      data.message) := by
    rw [notificationBody, word]
    rfl
  exact read_ignored keys _ 70 _ ((after_time_notification data now).trans (congrArg some body)) (by decide) (by decide)

theorem after_time_debug (sessionId : JString) : ∃ rest, afterTime (WsHandler.debugText sessionId) = some (121 :: rest) := by
  have text : ofString "[debug] your ws session id : " =
      [91, 100, 101, 98, 117, 103, 93, 32, 121] ++ (ofString "[debug] your ws session id : ").drop 9 := by decide +kernel
  have open_ : ofString "[" = [91] := by decide +kernel
  have close : ofString "] " = [93, 32] := by decide +kernel
  refine ⟨(ofString "[debug] your ws session id : ").drop 9 ++ sessionId, ?_⟩
  rw [afterTime, WsHandler.debugText, text, open_, close]
  simp [closeBracket, startsWith]

theorem read_debug (keys : Finset JString) (sessionId : JString) :
    readText keys (WsHandler.debugText sessionId) = keys := by
  obtain ⟨rest, body⟩ := after_time_debug sessionId
  exact read_ignored keys _ 121 rest body (by decide) (by decide)

theorem replay_snoc (texts : List JString) (text : JString) : replay (texts ++ [text]) = readText (replay texts) text := by
  rw [replay, List.foldl_append]
  rfl

structure Follows (session : S) (m : Monitor Ch S) : Prop where
  listed : m.ws.sessionSet session = true
  open_ : m.ws.isOpen session = true
  rebuilt : replay (m.ws.inbox session) = m.server.map.keys

def KeepsSession (session : S) : Happening Ch S → Prop
  | .call _ _ fails => fails session = false
  | .fileSent _ _ _ fails => fails session = false
  | .fileIn _ _ _ fails => fails session = false
  | .afterConnectionEstablished _ _ fails => fails session = false
  | .close other => other ≠ session
  | .afterConnectionClosed other => other ≠ session

omit [DecidableEq Ch] [DecidableEq S] in
theorem follows_send (session : S) (m : Monitor Ch S) (fails : S → Bool) (text : JString) (server : Server Ch)
    (follows : Follows session m) (kept : fails session = false) (read : readText m.server.map.keys text = server.map.keys) :
    Follows session ⟨server, m.ws.sendMessage fails text⟩ where
  listed := follows.listed
  open_ := follows.open_
  rebuilt := by
    have delivered : (m.ws.sendMessage fails text).inbox session = m.ws.inbox session ++ [text] := by
      simp [WsHandler.sendMessage, follows.listed, follows.open_, kept]
    rw [delivered, replay_snoc, follows.rebuilt, read]

omit [DecidableEq Ch] in
theorem follows_registered (session : S) (m : Monitor Ch S) (rebuilt : replay (m.ws.inbox session) = m.server.map.keys)
    (sessionId : JString) (fails : S → Bool) (kept : fails session = false) :
    Follows session { m with ws := m.ws.afterConnectionEstablished fails sessionId session } := by
  have widened : Follows session { m with ws := { m.ws with
      sessionSet := Function.update m.ws.sessionSet session true, isOpen := Function.update m.ws.isOpen session true } } :=
    ⟨by simp, by simp, rebuilt⟩
  exact follows_send session _ fails _ m.server widened kept (read_debug _ _)

theorem follows_call (id : Ch → JString) (session : S) (m : Monitor Ch S) (action : Call Ch) (now : LocalTime)
    (fails : S → Bool) (follows : Follows session m) (kept : fails session = false) :
    Follows session (m.step id (.call action now fails)) := by
  cases action with
  | channelRead0 c msg =>
      cases call_read_cases id m.server c msg with
      | quiet _ _ next =>
          simp only [Monitor.step, next, Monitor.published, List.drop_length]
          exact ⟨follows.listed, follows.open_, follows.rebuilt⟩
      | joined _ next =>
          simp only [Monitor.step, next, Monitor.published, joinedState, List.drop_left, List.foldl_cons, List.foldl_nil]
          refine follows_send session m fails _ _ follows kept ?_
          refine (read_connected _ _ now).trans ?_
          ext key
          simp [Finmap.mem_keys, Finmap.mem_insert]
  | channelInactive c =>
      simp only [Monitor.step, call_inactive, Monitor.published, inactiveState, List.drop_left, List.foldl_cons, List.foldl_nil]
      refine follows_send session m fails _ _ follows kept ?_
      refine (read_disconnected _ _ now).trans ?_
      rw [Finmap.keys_erase]

theorem follows_step (id : Ch → JString) (session : S) (m : Monitor Ch S) (happening : Happening Ch S)
    (follows : Follows session m) (keeps : KeepsSession session happening) : Follows session (m.step id happening) := by
  cases happening with
  | call action now fails => exact follows_call id session m action now fails follows keeps
  | fileSent publisher message now fails =>
      exact follows_send session m fails _ m.server follows keeps (read_file_event _ _ now (.inl rfl))
  | fileIn publisher message now fails =>
      exact follows_send session m fails _ m.server follows keeps (read_file_event _ _ now (.inr rfl))
  | afterConnectionEstablished other sessionId fails =>
      have widened : Follows session { m with ws := { m.ws with
          sessionSet := Function.update m.ws.sessionSet other true, isOpen := Function.update m.ws.isOpen other true } } := by
        refine ⟨?_, ?_, follows.rebuilt⟩
        · by_cases same : session = other <;> simp [same, follows.listed]
        · by_cases same : session = other <;> simp [same, follows.open_]
      exact follows_send session _ fails _ m.server widened keeps (read_debug _ _)
  | close other =>
      refine ⟨follows.listed, ?_, follows.rebuilt⟩
      simpa [Monitor.step, WsHandler.close, Function.update_of_ne (Ne.symm keeps)] using follows.open_
  | afterConnectionClosed other =>
      refine ⟨?_, follows.open_, follows.rebuilt⟩
      simpa [Monitor.step, WsHandler.afterConnectionClosed, Function.update_of_ne (Ne.symm keeps)] using follows.listed

def NoneJoined (m : Monitor Ch S) : Prop := ∀ event ∈ m.server.events, event.data.eventType ≠ .connected

-- Before the first JOIN the registry is empty and no text adds a name.
structure Unjoined (m : Monitor Ch S) : Prop where
  registry : m.server.map.keys = ∅
  texts : ∀ session, replay (m.ws.inbox session) = ∅

omit [DecidableEq Ch] [DecidableEq S] in
theorem unjoined_send (m : Monitor Ch S) (fails : S → Bool) (text : JString) (server : Server Ch) (unjoined : Unjoined m)
    (registry : server.map.keys = ∅) (read : readText ∅ text = ∅) : Unjoined ⟨server, m.ws.sendMessage fails text⟩ where
  registry := registry
  texts := by
    intro session
    simp only [WsHandler.sendMessage]
    split
    · rw [replay_snoc, unjoined.texts, read]
    · exact unjoined.texts session

theorem unjoined_step (id : Ch → JString) (m : Monitor Ch S) (happening : Happening Ch S)
    (unjoined : NoneJoined m → Unjoined m) (none : NoneJoined (m.step id happening)) : Unjoined (m.step id happening) := by
  cases happening with
  | call action now fails =>
      cases action with
      | channelRead0 c msg =>
          cases call_read_cases id m.server c msg with
          | quiet _ _ next =>
              simp only [NoneJoined, Monitor.step, next] at none
              simp only [Monitor.step, next, Monitor.published, List.drop_length]
              exact ⟨(unjoined none).registry, (unjoined none).texts⟩
          | joined _ next =>
              simp only [NoneJoined, Monitor.step, next, joinedState] at none
              exact False.elim (none _ (List.mem_append_right _ (List.mem_singleton.mpr rfl)) rfl)
      | channelInactive c =>
          simp only [NoneJoined, Monitor.step, call_inactive, inactiveState] at none
          simp only [Monitor.step, call_inactive, Monitor.published, inactiveState, List.drop_left, List.foldl_cons,
            List.foldl_nil]
          have before := unjoined fun event member => none event (List.mem_append_left _ member)
          refine unjoined_send m fails _ _ before ?_ ((read_disconnected ∅ _ now).trans (Finset.erase_empty _))
          rw [Finmap.keys_erase, before.registry, Finset.erase_empty]
  | fileSent publisher message now fails =>
      exact unjoined_send m fails _ m.server (unjoined none) (unjoined none).registry (read_file_event ∅ _ now (.inl rfl))
  | fileIn publisher message now fails =>
      exact unjoined_send m fails _ m.server (unjoined none) (unjoined none).registry (read_file_event ∅ _ now (.inr rfl))
  | afterConnectionEstablished other sessionId fails =>
      have widened : Unjoined { m with ws := { m.ws with
          sessionSet := Function.update m.ws.sessionSet other true, isOpen := Function.update m.ws.isOpen other true } } :=
        ⟨(unjoined none).registry, (unjoined none).texts⟩
      exact unjoined_send _ fails _ m.server widened (unjoined none).registry (read_debug ∅ _)
  | close other => exact ⟨(unjoined none).registry, (unjoined none).texts⟩
  | afterConnectionClosed other => exact ⟨(unjoined none).registry, (unjoined none).texts⟩

-- Registered before the first JOIN, never closed and never failing: after any
-- number of further happenings the texts spell the keys of the registry.
theorem monitored_session_rebuilds_registry (id : Ch → JString) (session : S) (sessionId : JString) (fails : S → Bool)
    (before after : List (Happening Ch S)) (none : NoneJoined (run (Monitor.step id) Monitor.start before))
    (kept : ∀ happening ∈ .afterConnectionEstablished session sessionId fails :: after, KeepsSession session happening) :
    replay ((run (Monitor.step id) Monitor.start
        (before ++ .afterConnectionEstablished session sessionId fails :: after)).ws.inbox session) =
      (run (Monitor.step id) Monitor.start
        (before ++ .afterConnectionEstablished session sessionId fails :: after)).server.map.keys := by
  have unjoined := invariant_run (Monitor.step id) (fun m => NoneJoined m → Unjoined m)
    (fun m happening earlier => unjoined_step id m happening earlier) Monitor.start before
    (fun _ => ⟨rfl, fun _ => rfl⟩) none
  have registered : Follows session ((run (Monitor.step id) Monitor.start before).step id
      (.afterConnectionEstablished session sessionId fails)) :=
    follows_registered session _ ((unjoined.texts session).trans unjoined.registry.symm) sessionId fails
      (kept (.afterConnectionEstablished session sessionId fails) (by simp))
  rw [run_append, run_cons]
  exact (invariant_along (Monitor.step id) (fun _ happening => KeepsSession session happening) (Follows session)
    (follows_step id session) _ after registered
    (along_of_forall _ _ _ after fun happening member => kept happening (by simp [member]))).rebuilt

def sampleTime : LocalTime := ⟨ofString "09:30:00.125", by decide +kernel⟩

def joinOther : Call Nat := .channelRead0 1 chunkB

def sampleHappenings : List (Happening Nat Nat) :=
  [.afterConnectionEstablished 1 (ofString "1") fun _ => false, .call joinA sampleTime fun _ => false,
    .fileSent (ofString "Connected x") (ofString "f") sampleTime fun _ => false, .afterConnectionClosed 1,
    .call (.channelInactive 0) sampleTime fun _ => false, .call joinOther sampleTime fun _ => false]

theorem sample_session_rebuilds_registry :
    replay ((run (Monitor.step sampleId) Monitor.start
        ([] ++ .afterConnectionEstablished 0 (ofString "0") (fun _ => false) :: sampleHappenings)).ws.inbox 0) =
      (run (Monitor.step sampleId) Monitor.start
        ([] ++ .afterConnectionEstablished 0 (ofString "0") (fun _ => false) :: sampleHappenings)).server.map.keys :=
  monitored_session_rebuilds_registry sampleId 0 (ofString "0") (fun _ => false) [] sampleHappenings (by simp [NoneJoined, Monitor.start, start])
    (by simp [sampleHappenings, KeepsSession])

end Nenes
