import Nenes.Base.EventLog
import Nenes.WsHandler

set_option autoImplicit false

namespace Nenes

open ByteBuf Runs EventLog

variable {S : Type} [DecidableEq S]

structure SessionSet (S : Type) where
  sessions : List S
  nodup : sessions.Nodup

namespace SessionSet

def empty : SessionSet S := ⟨[], List.nodup_nil⟩

def add (set : SessionSet S) (session : S) : SessionSet S := ⟨set.sessions.insert session, set.nodup.insert⟩

def remove (set : SessionSet S) (session : S) : SessionSet S := ⟨set.sessions.erase session, set.nodup.erase session⟩

end SessionSet

namespace Broadcast

-- One iteration over the HashSet, in any order, with what isOpen answers at each
-- session's turn and the sends that throw.
structure Turns (S : Type) where
  order : List S → List S
  shuffled : ∀ sessions, (order sessions).Perm sessions
  isOpen : S → Bool
  fails : S → Bool

structure Handed (S : Type) where
  session : S
  message : JString
  delivered : Bool
deriving DecidableEq, Repr

structure State (S : Type) where
  sessionSet : SessionSet S
  handed : List (Handed S)

def start : State S := ⟨.empty, []⟩

-- An exception of a send is caught in that session's turn.
def sendLoop (turns : Turns S) (message : JString) : List S → List (Handed S)
  | [] => []
  | session :: rest =>
      if turns.isOpen session then ⟨session, message, !turns.fails session⟩ :: sendLoop turns message rest
      else sendLoop turns message rest

def sendMessage (turns : Turns S) (message : JString) (state : State S) : State S :=
  { state with handed := state.handed ++ sendLoop turns message (turns.order state.sessionSet.sessions) }

inductive SessionCall (S : Type) where
  | afterConnectionEstablished (session : S) (turns : Turns S)
  | afterConnectionClosed (session : S)
  | handleTransportError (session : S)
  | onApplicationEvent (data : MessageEventData) (now : LocalTime) (turns : Turns S)

def step (id : S → JString) (state : State S) : SessionCall S → State S
  | .afterConnectionEstablished session turns =>
      sendMessage turns (WsHandler.debugText (id session)) { state with sessionSet := state.sessionSet.add session }
  | .afterConnectionClosed session => { state with sessionSet := state.sessionSet.remove session }
  | .handleTransportError _ => state
  | .onApplicationEvent data now turns => sendMessage turns (data.notificationFormat now.text) state

def Establishes (session : S) : SessionCall S → Prop
  | .afterConnectionEstablished other _ => other = session
  | _ => False

def Closes (session : S) : SessionCall S → Prop
  | .afterConnectionClosed other => other = session
  | _ => False

def Registered (session : S) (calls : List (SessionCall S)) : Prop := Since (Establishes session) (Closes session) calls

-- The texts a call hands out, by session.
def handedTo (id : S → JString) (state : State S) (call : SessionCall S) (session : S) : List (Handed S) :=
  ((step id state call).handed.drop state.handed.length).filter fun handed => handed.session = session

structure ExactlyOnce (id : S → JString) (calls : List (SessionCall S)) : Prop where
  sessionSet : ∀ session, session ∈ (run (step id) start calls).sessionSet.sessions ↔ Registered session calls
  once : ∀ before data now turns after session, calls = before ++ .onApplicationEvent data now turns :: after →
    Registered session before →
      handedTo id (run (step id) start before) (.onApplicationEvent data now turns) session =
        if turns.isOpen session then [⟨session, data.notificationFormat now.text, !turns.fails session⟩] else []
  never : ∀ before call after session, calls = before ++ call :: after → ¬ Registered session (before ++ [call]) →
    handedTo id (run (step id) start before) call session = []

theorem step_registered (id : S → JString) (state : State S) (call : SessionCall S) (session : S) :
    session ∈ (step id state call).sessionSet.sessions ↔
      Establishes session call ∨ (session ∈ state.sessionSet.sessions ∧ ¬ Closes session call) := by
  cases call with
  | afterConnectionEstablished other turns =>
      simp [step, sendMessage, SessionSet.add, Establishes, Closes, eq_comm]
  | afterConnectionClosed other =>
      simp [step, SessionSet.remove, state.sessionSet.nodup.mem_erase_iff, Establishes, Closes, and_comm, eq_comm]
  | handleTransportError other => simp [step, Establishes, Closes]
  | onApplicationEvent data now turns => simp [step, sendMessage, Establishes, Closes]

theorem run_registered (id : S → JString) (calls : List (SessionCall S)) (session : S) :
    session ∈ (run (step id) start calls).sessionSet.sessions ↔ Registered session calls :=
  run_holds_iff_since (step id) (fun state => session ∈ state.sessionSet.sessions) _ _
    (fun state call => step_registered id state call session) start List.not_mem_nil calls

theorem send_loop_to (turns : Turns S) (message : JString) (session : S) (sessions : List S) :
    (sendLoop turns message sessions).filter (fun handed => handed.session = session) =
      if turns.isOpen session then List.replicate (sessions.count session) ⟨session, message, !turns.fails session⟩
      else [] := by
  induction sessions with
  | nil => simp [sendLoop]
  | cons other rest ih =>
      by_cases same : other = session
      · subst same
        cases open_ : turns.isOpen other with
        | true => simp [sendLoop, ih, open_, List.replicate_succ]
        | false => simp [sendLoop, ih, open_]
      · cases open_ : turns.isOpen other with
        | true => simp [sendLoop, ih, open_, same]
        | false => simp [sendLoop, ih, open_, same]

theorem send_order_to (turns : Turns S) (message : JString) (state : State S) (session : S) :
    (sendLoop turns message (turns.order state.sessionSet.sessions)).filter (fun handed => handed.session = session) =
      if session ∈ state.sessionSet.sessions ∧ turns.isOpen session = true then
        [⟨session, message, !turns.fails session⟩]
      else [] := by
  have turn : (turns.order state.sessionSet.sessions).count session =
      if session ∈ state.sessionSet.sessions then 1 else 0 := by
    rw [(turns.shuffled state.sessionSet.sessions).count_eq, state.sessionSet.nodup.count]
  rw [send_loop_to, turn]
  by_cases registered : session ∈ state.sessionSet.sessions
  · simp [registered]
  · simp [registered]

theorem send_message_to (turns : Turns S) (message : JString) (state : State S) (session : S) :
    ((sendMessage turns message state).handed.drop state.handed.length).filter (fun handed => handed.session = session) =
      if session ∈ state.sessionSet.sessions ∧ turns.isOpen session = true then
        [⟨session, message, !turns.fails session⟩]
      else [] := by
  rw [sendMessage, List.drop_left, send_order_to]

theorem handed_to_registered (id : S → JString) (state : State S) (call : SessionCall S) (session : S)
    (absent : session ∉ (step id state call).sessionSet.sessions) : handedTo id state call session = [] := by
  cases call with
  | afterConnectionEstablished other turns =>
      exact (send_message_to turns _ { state with sessionSet := state.sessionSet.add other } session).trans
        (if_neg fun turn => absent turn.1)
  | afterConnectionClosed other => simp [handedTo, step]
  | handleTransportError other => simp [handedTo, step]
  | onApplicationEvent data now turns =>
      exact (send_message_to turns _ state session).trans (if_neg fun turn => absent turn.1)

theorem events_reach_registered_once (id : S → JString) (calls : List (SessionCall S)) : ExactlyOnce id calls := by
  refine ⟨run_registered id calls, ?_, ?_⟩
  · intro before data now turns after session _ registered
    have member := (run_registered id before session).mpr registered
    refine (send_message_to turns _ (run (step id) start before) session).trans ?_
    simp [member]
  · intro before call after session _ unregistered
    apply handed_to_registered
    rw [← run_registered id, run_append] at unregistered
    exact unregistered

def received (session : S) (state : State S) : List JString :=
  ((state.handed.filter fun handed => handed.session = session).filter Handed.delivered).map Handed.message

def Reaches (session : S) (state : State S) (turns : Turns S) : Prop :=
  session ∈ state.sessionSet.sessions ∧ turns.isOpen session = true ∧ turns.fails session = false

instance (session : S) (state : State S) (turns : Turns S) : Decidable (Reaches session state turns) :=
  inferInstanceAs (Decidable (_ ∧ _))

theorem received_send (turns : Turns S) (message : JString) (state : State S) (session : S) :
    received session (sendMessage turns message state) =
      received session state ++ if Reaches session state turns then [message] else [] := by
  rw [received, sendMessage, List.filter_append, send_order_to, List.filter_append, List.map_append, ← received]
  congr 1
  by_cases registered : session ∈ state.sessionSet.sessions ∧ turns.isOpen session = true
  · cases fails : turns.fails session with
    | true => simp [Reaches, registered, fails]
    | false => simp [Reaches, registered, fails]
  · have unreached : ¬ Reaches session state turns := fun reaches => registered ⟨reaches.1, reaches.2.1⟩
    simp [registered, unreached]

-- The handler of the monitored system, whose sends are not a loop.
structure Models (ws : WsHandler S) (state : State S) : Prop where
  sessionSet : ∀ session, ws.sessionSet session = true ↔ session ∈ state.sessionSet.sessions
  inbox : ∀ session, ws.inbox session = received session state

theorem send_models (ws : WsHandler S) (state : State S) (turns : Turns S) (message : JString) (models : Models ws state)
    (open_ : ws.isOpen = turns.isOpen) : Models (ws.sendMessage turns.fails message) (sendMessage turns message state) where
  sessionSet := models.sessionSet
  inbox := by
    intro session
    have reaches : Reaches session state turns ↔
        (ws.sessionSet session && ws.isOpen session && !turns.fails session) = true := by
      simp [Reaches, ← models.sessionSet, open_, and_assoc]
    simp only [received_send, WsHandler.sendMessage, reaches, models.inbox]
    split
    · rfl
    · rw [List.append_nil]

theorem event_models (id : S → JString) (ws : WsHandler S) (state : State S) (turns : Turns S) (data : MessageEventData)
    (now : LocalTime) (models : Models ws state) (open_ : ws.isOpen = turns.isOpen) :
    Models (ws.onApplicationEvent turns.fails now data) (step id state (.onApplicationEvent data now turns)) :=
  send_models ws state turns _ models open_

theorem established_models (id : S → JString) (ws : WsHandler S) (state : State S) (turns : Turns S) (session : S)
    (models : Models ws state) (open_ : Function.update ws.isOpen session true = turns.isOpen) :
    Models (ws.afterConnectionEstablished turns.fails (id session) session)
      (step id state (.afterConnectionEstablished session turns)) := by
  have widened : Models { ws with
      sessionSet := Function.update ws.sessionSet session true, isOpen := Function.update ws.isOpen session true }
      { state with sessionSet := state.sessionSet.add session } := by
    refine ⟨fun other => ?_, models.inbox⟩
    by_cases same : other = session
    · simp [same, SessionSet.add]
    · simp [same, SessionSet.add, models.sessionSet]
  exact send_models _ _ turns _ widened open_

theorem closed_models (id : S → JString) (ws : WsHandler S) (state : State S) (session : S) (models : Models ws state) :
    Models (ws.afterConnectionClosed session) (step id state (.afterConnectionClosed session)) := by
  refine ⟨fun other => ?_, models.inbox⟩
  rw [step_registered, ← models.sessionSet]
  by_cases same : other = session
  · simp [same, WsHandler.afterConnectionClosed, Establishes, Closes]
  · simp [same, WsHandler.afterConnectionClosed, Establishes, Closes, Ne.symm same]

end Broadcast

end Nenes
