import Nenes.Isolation
import Nenes.Monitor

set_option autoImplicit false

namespace Nenes

open ByteBuf OperationServerHandler Server Runs

variable {Ch S : Type} [DecidableEq Ch] [DecidableEq S]

-- The element that the page of w.jsp appends to its menu for a received text.
def informEvent (message : JString) : JString :=
  ofString "<li role=\"presentation\"><a role=\"menuitem\" tabindex=\"-1\" href=\"#\">" ++ message ++ ofString "</a></li>"

def isMarkup (unit : UInt16) : Bool := unit = 60 ∨ unit = 62

def markup (html : JString) : JString := html.filter isMarkup

def NoMarkup (text : JString) : Prop := ∀ unit ∈ text, isMarkup unit = false

theorem markup_append (a b : JString) : markup (a ++ b) = markup a ++ markup b := List.filter_append _ _

theorem markup_nil_iff (text : JString) : markup text = [] ↔ NoMarkup text := by
  simp [markup, NoMarkup]

theorem inserted_markup (front inserted rest : JString) :
    markup (front ++ (inserted ++ rest)) = markup (front ++ rest) ↔ NoMarkup inserted := by
  rw [markup_append, markup_append, markup_append, List.append_cancel_left_eq, List.append_left_eq_self, markup_nil_iff]

theorem name_inserted (name : JString) (now : LocalTime) : ∃ front rest,
    informEvent ((connectedText name).notificationFormat now.text) = front ++ (name ++ rest) ∧
      informEvent ((connectedText []).notificationFormat now.text) = front ++ rest := by
  refine ⟨ofString "<li role=\"presentation\"><a role=\"menuitem\" tabindex=\"-1\" href=\"#\">" ++
    (ofString "[" ++ now.text ++ ofString "] " ++ EventType.name .connected ++ ofString " "),
    ofString " " ++ ofString "</a></li>", ?_, ?_⟩
  all_goals simp [informEvent, MessageEventData.notificationFormat, connectedText]

theorem no_markup_append (a b : JString) : NoMarkup (a ++ b) ↔ NoMarkup a ∧ NoMarkup b := List.forall_mem_append

theorem name_markup (data id : JString) (hex : NoMarkup id) : NoMarkup (nameOf data id) ↔ NoMarkup data := by
  have brackets : NoMarkup (openParen :: (id ++ [41])) := by
    change NoMarkup ([openParen] ++ (id ++ [41]))
    rw [no_markup_append, no_markup_append]
    exact ⟨by simp [NoMarkup, isMarkup, openParen], hex, by simp [NoMarkup, isMarkup]⟩
  rw [name_of_parts, no_markup_append]
  exact and_iff_left brackets

theorem decoded_markup (data : Bytes) : NoMarkup (toStringUtf8 data) ↔ 60 ∉ data ∧ 62 ∉ data := by
  have less := to_string_utf8_ascii_mem 60 data (by decide)
  have greater := to_string_utf8_ascii_mem 62 data (by decide)
  change 60 ∈ toStringUtf8 data ↔ 60 ∈ data at less
  change 62 ∈ toStringUtf8 data ↔ 62 ∈ data at greater
  rw [← less, ← greater]
  constructor
  · intro plain
    exact ⟨fun member => absurd (plain 60 member) (by decide), fun member => absurd (plain 62 member) (by decide)⟩
  · intro absent unit member
    rw [isMarkup, decide_eq_false_iff_not]
    rintro (rfl | rfl)
    · exact absent.1 member
    · exact absent.2 member

-- The whole payload: what earlier chunks have left in operationData, and the
-- bytes of the chunk that completes the JOIN.
def PlainPayload (this : OperationServerHandler) (data : Bytes) : Prop :=
  NoMarkup this.operationData ∧ 60 ∉ data ∧ 62 ∉ data

theorem joined_text (id : Ch → JString) (session : S) (m : Monitor Ch S) (c : Ch) (msg : Chunk) (data : Bytes)
    (completes : CompletesJoin (m.server.handler c).offset msg.bytes data) (now : LocalTime) (fails : S → Bool)
    (follows : m.ws.sessionSet session = true ∧ m.ws.isOpen session = true ∧ fails session = false) :
    (m.step id (.call (.channelRead0 c msg) now fails)).ws.inbox session = m.ws.inbox session ++
      [(connectedText (nameOf ((m.server.handler c).operationData ++ toStringUtf8 data) (id c))).notificationFormat now.text] := by
  have named : (afterRead id m.server c msg).agentName =
      nameOf ((m.server.handler c).operationData ++ toStringUtf8 data) (id c) := by
    have read := (channel_read_spec (id c) (m.server.handler c) msg).refines
    rw [(delivery_joined_iff _ _ _).mpr completes] at read
    exact congrArg (fun pair => pair.1.agentName) read
  cases call_read_cases id m.server c msg with
  | quiet absent _ _ => exact False.elim (absent _ ⟨data, completes, rfl⟩)
  | joined _ next =>
      simp only [Monitor.step, next, Monitor.published, joinedState, List.drop_left, List.foldl_cons, List.foldl_nil]
      rw [named]
      simp [WsHandler.onApplicationEvent, WsHandler.sendMessage, follows, connectedText]

theorem payload_markup (id : Ch → JString) (session : S) (m : Monitor Ch S) (c : Ch) (msg : Chunk) (data : Bytes)
    (completes : CompletesJoin (m.server.handler c).offset msg.bytes data) (hex : NoMarkup (id c)) (now : LocalTime)
    (fails : S → Bool) (follows : m.ws.sessionSet session = true ∧ m.ws.isOpen session = true ∧ fails session = false) :
    ∃ text, (m.step id (.call (.channelRead0 c msg) now fails)).ws.inbox session = m.ws.inbox session ++ [text] ∧
      (markup (informEvent text) = markup (informEvent ((connectedText []).notificationFormat now.text)) ↔
        PlainPayload (m.server.handler c) data) := by
  refine ⟨_, joined_text id session m c msg data completes now fails follows, ?_⟩
  obtain ⟨front, rest, named, empty⟩ :=
    name_inserted (nameOf ((m.server.handler c).operationData ++ toStringUtf8 data) (id c)) now
  rw [named, empty, inserted_markup, name_markup _ _ hex, no_markup_append, decoded_markup]
  rfl

-- A page is open when agent a joins.
def watchedStart : Monitor Nat Nat :=
  Monitor.start.step sampleId (.afterConnectionEstablished 0 (ofString "0") fun _ => false)

theorem sample_a_completes : CompletesJoin 0 chunkA.bytes (getBytes (ofString "a")) :=
  (delivery_joined_iff _ _ _).mp (by decide +kernel)

theorem sample_id_plain : NoMarkup (sampleId 0) := by
  rw [← markup_nil_iff]
  decide +kernel

theorem sample_payload_markup :
    ∃ text, (watchedStart.step sampleId (.call (.channelRead0 0 chunkA) sampleTime fun _ => false)).ws.inbox 0 =
        watchedStart.ws.inbox 0 ++ [text] ∧
      (markup (informEvent text) = markup (informEvent ((connectedText []).notificationFormat sampleTime.text)) ↔
        PlainPayload (watchedStart.server.handler 0) (getBytes (ofString "a"))) :=
  payload_markup sampleId 0 watchedStart 0 chunkA (getBytes (ofString "a")) sample_a_completes sample_id_plain sampleTime
    (fun _ => false) ⟨rfl, rfl, rfl⟩

theorem bold_fits : (joinFrame (getBytes (ofString "<b>"))).length < 2 ^ 31 := by decide +kernel

theorem bold_completes : CompletesJoin 0 (joinFrame (getBytes (ofString "<b>"))) (getBytes (ofString "<b>")) :=
  (delivery_joined_iff _ _ _).mp (by decide +kernel)

theorem bold_payload_injects_markup :
    CompletesJoin (watchedStart.server.handler 0).offset (joinFrame (getBytes (ofString "<b>"))) (getBytes (ofString "<b>")) ∧
      ∃ text, (watchedStart.step sampleId (.call (.channelRead0 0 ⟨_, bold_fits⟩) sampleTime fun _ => false)).ws.inbox 0 =
          watchedStart.ws.inbox 0 ++ [text] ∧
        markup (informEvent text) ≠ markup (informEvent ((connectedText []).notificationFormat sampleTime.text)) := by
  refine ⟨bold_completes, _,
    joined_text sampleId 0 watchedStart 0 ⟨_, bold_fits⟩ _ bold_completes sampleTime _ ⟨rfl, rfl, rfl⟩, ?_⟩
  decide +kernel

end Nenes
