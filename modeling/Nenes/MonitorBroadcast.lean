import Nenes.Broadcast
import Nenes.NotificationPage

set_option autoImplicit false

namespace Nenes

open ByteBuf OperationServerHandler Server Runs

variable {Ch S : Type} [DecidableEq Ch] [DecidableEq S]

namespace Monitor

-- The order in which a happening's broadcast goes over the sessions.
structure Shuffle (S : Type) where
  order : List S → List S
  shuffled : ∀ sessions, (order sessions).Perm sessions

def turns (m : Monitor Ch S) (shuffle : Shuffle S) (fails : S → Bool) : Broadcast.Turns S :=
  ⟨shuffle.order, shuffle.shuffled, m.ws.isOpen, fails⟩

-- The handler's calls that a happening comes to.
def handlerCalls (id : Ch → JString) (m : Monitor Ch S) (shuffle : Shuffle S) :
    Happening Ch S → List (Broadcast.SessionCall S)
  | .call action now fails =>
      (published m.server (Server.call id m.server action)).map fun event =>
        .onApplicationEvent event.data now (m.turns shuffle fails)
  | .fileSent publisher message now fails =>
      [.onApplicationEvent ⟨.fileSent, publisher, message⟩ now (m.turns shuffle fails)]
  | .fileIn publisher message now fails =>
      [.onApplicationEvent ⟨.fileIn, publisher, message⟩ now (m.turns shuffle fails)]
  | .afterConnectionEstablished session _ fails =>
      [.afterConnectionEstablished session
        ⟨shuffle.order, shuffle.shuffled, Function.update m.ws.isOpen session true, fails⟩]
  | .close _ => []
  | .afterConnectionClosed session => [.afterConnectionClosed session]

def sessionCalls (id : Ch → JString) : Monitor Ch S → List (Happening Ch S × Shuffle S) → List (Broadcast.SessionCall S)
  | _, [] => []
  | m, (happening, shuffle) :: rest =>
      m.handlerCalls id shuffle happening ++ sessionCalls id (m.step id happening) rest

-- session.getId() is the session's own.
def HasOwnId (sessionId : S → JString) : Happening Ch S → Prop
  | .afterConnectionEstablished session sent _ => sent = sessionId session
  | _ => True

end Monitor

open Monitor

omit [DecidableEq Ch] in
theorem published_models (sessionId : S → JString) (m : Monitor Ch S) (state : Broadcast.State S) (shuffle : Shuffle S)
    (fails : S → Bool) (now : LocalTime) (events : List (MessageEvent Ch)) (ws : WsHandler S) (models : Broadcast.Models ws state)
    (open_ : ws.isOpen = m.ws.isOpen) :
    Broadcast.Models (events.foldl (fun ws event => ws.onApplicationEvent fails now event.data) ws)
      (run (Broadcast.step sessionId) state
        (events.map fun event => .onApplicationEvent event.data now (m.turns shuffle fails))) := by
  induction events generalizing ws state with
  | nil => exact models
  | cons event rest ih =>
      rw [List.foldl_cons, List.map_cons, run_cons]
      exact ih _ _ (Broadcast.event_models sessionId ws state (m.turns shuffle fails) event.data now models open_) open_

theorem happening_models (sessionId : S → JString) (id : Ch → JString) (m : Monitor Ch S) (state : Broadcast.State S)
    (shuffle : Shuffle S) (happening : Happening Ch S) (own : HasOwnId sessionId happening)
    (models : Broadcast.Models m.ws state) :
    Broadcast.Models (m.step id happening).ws
      (run (Broadcast.step sessionId) state (m.handlerCalls id shuffle happening)) := by
  cases happening with
  | call action now fails => exact published_models sessionId m state shuffle fails now _ m.ws models rfl
  | fileSent publisher message now fails =>
      exact Broadcast.event_models sessionId m.ws state (m.turns shuffle fails) _ now models rfl
  | fileIn publisher message now fails =>
      exact Broadcast.event_models sessionId m.ws state (m.turns shuffle fails) _ now models rfl
  | afterConnectionEstablished session sent fails =>
      obtain rfl : sent = sessionId session := own
      exact Broadcast.established_models sessionId m.ws state
        ⟨shuffle.order, shuffle.shuffled, Function.update m.ws.isOpen session true, fails⟩ session models rfl
  | close session => exact ⟨models.sessionSet, models.inbox⟩
  | afterConnectionClosed session => exact Broadcast.closed_models sessionId m.ws state session models

theorem run_models (sessionId : S → JString) (id : Ch → JString) (steps : List (Happening Ch S × Shuffle S))
    (m : Monitor Ch S) (state : Broadcast.State S) (own : ∀ step ∈ steps, HasOwnId sessionId step.1)
    (models : Broadcast.Models m.ws state) :
    Broadcast.Models (run (Monitor.step id) m (steps.map Prod.fst)).ws
      (run (Broadcast.step sessionId) state (m.sessionCalls id steps)) := by
  induction steps generalizing m state with
  | nil => exact models
  | cons first rest ih =>
      obtain ⟨named, later⟩ := List.forall_mem_cons.mp own
      rw [List.map_cons, run_cons, sessionCalls, run_append]
      exact ih _ _ later (happening_models sessionId id m state first.2 first.1 named models)

-- The monitored system delivers what the loop over the HashSet delivers, in
-- whatever order each loop takes the sessions.
theorem monitor_refines_broadcast (sessionId : S → JString) (id : Ch → JString) (steps : List (Happening Ch S × Shuffle S))
    (own : ∀ step ∈ steps, HasOwnId sessionId step.1) :
    Broadcast.Models (run (Monitor.step id) Monitor.start (steps.map Prod.fst)).ws
      (run (Broadcast.step sessionId) Broadcast.start (Monitor.start.sessionCalls id steps)) :=
  run_models sessionId id steps Monitor.start Broadcast.start own
    ⟨by simp [Monitor.start, Broadcast.start, SessionSet.empty], fun _ => rfl⟩

-- Two pages, and a JOIN told to the later one first.
def shuffledSteps : List (Happening Nat Nat × Shuffle Nat) :=
  [(.afterConnectionEstablished 0 (sampleId 0) fun _ => false, ⟨id, fun _ => .refl _⟩),
    (.afterConnectionEstablished 1 (sampleId 1) fun _ => false, ⟨List.reverse, List.reverse_perm⟩),
    (.call (.channelRead0 0 chunkA) sampleTime fun _ => false, ⟨List.reverse, List.reverse_perm⟩)]

theorem shuffled_steps_refine :
    Broadcast.Models (run (Monitor.step sampleId) Monitor.start (shuffledSteps.map Prod.fst)).ws
      (run (Broadcast.step sampleId) Broadcast.start (Monitor.start.sessionCalls sampleId shuffledSteps)) :=
  monitor_refines_broadcast sampleId sampleId shuffledSteps (by
    intro step member
    simp only [shuffledSteps, List.mem_cons, List.not_mem_nil, or_false] at member
    rcases member with rfl | rfl | rfl
    · rfl
    · rfl
    · trivial)

end Nenes
