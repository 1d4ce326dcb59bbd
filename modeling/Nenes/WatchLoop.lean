import Mathlib.Data.List.TakeWhile
import Nenes.Base.Runs
import Nenes.DirWatchService

set_option autoImplicit false

namespace Nenes

open ByteBuf Runs

namespace DirWatchService

-- An overflow is delivered without having been registered for, and has no
-- context.
inductive WatchEvent where
  | entryCreate (name : JString)
  | overflow
deriving DecidableEq, Repr

def WatchEvent.kind : WatchEvent → JString
  | .entryCreate _ => ofString "ENTRY_CREATE"
  | .overflow => ofString "OVERFLOW"

def WatchEvent.context : WatchEvent → Option JString
  | .entryCreate name => some name
  | .overflow => none

def WatchEvent.published (event : WatchEvent) : MessageEventData :=
  ⟨.fileIn, ofString "DirWatchService", event.kind ++ ofString " for path: " ++ event.context.getD (ofString "null")⟩

-- How one turn of the loop ends: take() is interrupted, or gives a key with the
-- events it polls and the answer of its reset.
inductive Turn where
  | interrupted
  | key (events : List WatchEvent) (valid : Bool)
deriving DecidableEq, Repr

def Turn.events : Turn → List WatchEvent
  | .interrupted => []
  | .key events _ => events

def Turn.invalid : Turn → Bool
  | .interrupted => false
  | .key _ valid => !valid

structure LoopRun where
  published : List MessageEventData
  stopped : Bool
deriving DecidableEq, Repr

-- The loop over what it is given; then it waits in take().
def watchLoop : List Turn → LoopRun
  | [] => ⟨[], false⟩
  | .interrupted :: rest => watchLoop rest
  | .key events valid :: rest =>
      if valid then ⟨events.map WatchEvent.published ++ (watchLoop rest).published, (watchLoop rest).stopped⟩
      else ⟨events.map WatchEvent.published, true⟩

def handled (turns : List Turn) : List Turn :=
  turns.takeWhile (fun turn => !turn.invalid) ++ (turns.dropWhile fun turn => !turn.invalid).take 1

def handledEvents (turns : List Turn) : List WatchEvent := (handled turns).flatMap Turn.events

structure ReportsNewFiles (turns : List Turn) : Prop where
  published : (watchLoop turns).published = ((handledEvents turns).filterMap WatchEvent.context).map fileIn
  stops : (watchLoop turns).stopped = turns.any Turn.invalid

theorem entry_create_published (name : JString) : (WatchEvent.entryCreate name).published = fileIn name := by
  have word : ofString "ENTRY_CREATE" ++ ofString " for path: " = ofString "ENTRY_CREATE for path: " := by decide +kernel
  rw [WatchEvent.published, WatchEvent.kind, WatchEvent.context, word, Option.getD_some, fileIn]

theorem handled_valid (turn : Turn) (rest : List Turn) (valid : turn.invalid = false) :
    handledEvents (turn :: rest) = turn.events ++ handledEvents rest := by
  simp [handledEvents, handled, valid]

theorem handled_invalid (turn : Turn) (rest : List Turn) (invalid : turn.invalid = true) :
    handledEvents (turn :: rest) = turn.events := by
  simp [handledEvents, handled, invalid]

-- Every polled event is published, whatever its kind.
theorem watch_loop_published (turns : List Turn) :
    (watchLoop turns).published = (handledEvents turns).map WatchEvent.published := by
  induction turns with
  | nil => rfl
  | cons turn rest ih =>
      cases turn with
      | interrupted =>
          rw [handled_valid _ rest rfl]
          exact ih
      | key events valid =>
          cases valid with
          | true => rw [handled_valid _ rest rfl, List.map_append, ← ih, watchLoop, if_pos rfl, Turn.events]
          | false =>
              rw [handled_invalid _ rest rfl]
              rfl

theorem watch_loop_stopped (turns : List Turn) : (watchLoop turns).stopped = turns.any Turn.invalid := by
  induction turns with
  | nil => rfl
  | cons turn rest ih =>
      cases turn with
      | interrupted => exact ih
      | key events valid =>
          cases valid with
          | true => exact ih
          | false => rfl

theorem named_events_published (events : List WatchEvent) (named : .overflow ∉ events) :
    events.map WatchEvent.published = (events.filterMap WatchEvent.context).map fileIn := by
  induction events with
  | nil => rfl
  | cons event rest ih =>
      rw [List.mem_cons, not_or] at named
      obtain ⟨first, later⟩ := named
      cases event with
      | entryCreate name =>
          rw [List.map_cons, ih later, entry_create_published]
          rfl
      | overflow => exact False.elim (first rfl)

theorem named_events_counted (events : List WatchEvent)
    (counted : (events.filterMap WatchEvent.context).length = events.length) : .overflow ∉ events := by
  intro member
  have named := List.filterMap_length_eq_length.mp counted .overflow member
  cases named

theorem new_files_reported (turns : List Turn) :
    ReportsNewFiles turns ↔ ∀ turn ∈ handled turns, .overflow ∉ turn.events := by
  have flat : (∀ turn ∈ handled turns, .overflow ∉ turn.events) ↔ .overflow ∉ handledEvents turns := by
    simp [handledEvents, List.mem_flatMap]
  rw [flat]
  constructor
  · intro reports
    -- One event is published for each polled one, so none may lack a name.
    have counts := congrArg List.length reports.published
    rw [watch_loop_published, List.length_map, List.length_map] at counts
    exact named_events_counted _ counts.symm
  · intro named
    exact ⟨(watch_loop_published turns).trans (named_events_published _ named), watch_loop_stopped turns⟩

theorem overflow_reported_as_file :
    ¬ ReportsNewFiles [.key [.entryCreate (ofString "a.txt"), .overflow] false] := by
  intro reports
  have published := reports.published
  revert published
  decide +kernel

-- The events of a run of the workspace are what the loop publishes when each new
-- file comes with a key of its own.
def turnsFor (registered : Option JString) : WorkspaceAction → List Turn
  | .created directory name => if registered = some directory then [.key [.entryCreate name] true] else []
  | _ => []

theorem workspace_events [FileSystem] (gson : Gson) (state : State) (actions : List WorkspaceAction) :
    (run (step gson) state actions).events =
      state.events ++ (watchLoop (actions.flatMap (turnsFor state.registered))).published := by
  induction actions generalizing state with
  | nil => exact (List.append_nil _).symm
  | cons action rest ih =>
      rw [run_cons, ih, step_registered, List.flatMap_cons]
      cases action with
      | saveConfiguration configuration outcome => rfl
      | nfile selected =>
          have kept : (step gson state (.nfile selected)).events = state.events := (nfile_kept state selected).2.2
          rw [kept]
          rfl
      | created directory name =>
          by_cases here : state.registered = some directory
          · rw [step, turnsFor, if_pos here, if_pos here, List.singleton_append, watchLoop, if_pos rfl, List.map_singleton,
              entry_create_published, List.append_assoc]
          · rw [step, turnsFor, if_neg here, if_neg here, List.nil_append]

end DirWatchService

end Nenes
