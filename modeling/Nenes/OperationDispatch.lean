import Nenes.OperationFrames
import Nenes.RequestThread

set_option autoImplicit false

namespace Nenes

open ByteBuf Runs NOperationCommand

variable {Ch : Type}

-- What the listed agents are owed: one header and payload for each occurrence
-- of a name that is registered to an active channel.
def operationWrites (env : Env Ch) (msg : JString) (agentNames : List JString) : List (Ch × Part × Bytes) :=
  agentNames.flatMap fun element =>
    match target env element with
    | none => []
    | some ch => [(ch, .header, initializeProtocol msg), (ch, .body, getBytes msg)]

structure DispatchesExactly (env : Env Ch) (msg : JString) (agent : Option (List JString)) : Prop where
  returns : (sendCommand ⟨some msg, agent⟩ : Program Ch).raised env = none
  queues : (sendCommand ⟨some msg, agent⟩ : Program Ch).queued env = operationWrites env msg (agent.getD [])

theorem send_loop_raised (env : Env Ch) (msg : JString) (agentNames : List JString) :
    (sendLoop msg agentNames : Program Ch).raised env = none := by
  induction agentNames with
  | nil => rfl
  | cons element rest ih =>
      cases found : target env element with
      | none => rw [skips_raised env _ _ (send_loop_absent env msg element rest found), ih]
      | some ch =>
          rw [skips_raised env _ _ (send_loop_present env ch msg element rest found)]
          exact ih

theorem send_loop_queued (env : Env Ch) (msg : JString) (agentNames : List JString) :
    (sendLoop msg agentNames : Program Ch).queued env = operationWrites env msg agentNames := by
  induction agentNames with
  | nil => rfl
  | cons element rest ih =>
      rw [operationWrites, List.flatMap_cons, ← operationWrites, ← ih]
      cases found : target env element with
      | none => rw [skips_queued env _ _ (send_loop_absent env msg element rest found), List.nil_append]
      | some ch =>
          rw [skips_queued env _ _ (send_loop_present env ch msg element rest found)]
          rfl

-- On one channel these are the frames of the names registered to it.
theorem operation_writes_on [DecidableEq Ch] (env : Env Ch) (ch : Ch) (msg : JString) (agentNames : List JString) :
    (operationWrites env msg agentNames).filter (fun write => write.1 = ch) =
      (agentNames.filter fun element => target env element = some ch).flatMap fun _ =>
        [(ch, .header, initializeProtocol msg), (ch, .body, getBytes msg)] := by
  induction agentNames with
  | nil => rfl
  | cons element rest ih =>
      rw [operationWrites, List.flatMap_cons, ← operationWrites, List.filter_append, ih]
      cases found : target env element with
      | none => simp [found]
      | some other =>
          by_cases here : other = ch
          · simp [found, here]
          · simp [found, here]

-- The service's thread has been started by then, so the text watch ends the
-- request before its loop, whoever is listed.
theorem dispatches_exactly (env : Env Ch) (msg : JString) (agent : Option (List JString)) :
    DispatchesExactly env msg agent ↔ msg ≠ ofString "watch" := by
  cases send_command_cases Ch ⟨some msg, agent⟩ with
  | loops text agentNames same_text other names same =>
      obtain rfl : msg = text := Option.some.inj same_text
      obtain rfl : agent = some agentNames := names
      refine ⟨fun _ => other, fun _ => ⟨?_, ?_⟩⟩
      · rw [same, send_loop_raised]
      · rw [same, send_loop_queued, Option.getD_some]
  | nothing missing other same =>
      obtain rfl : agent = none := missing.resolve_left (by simp)
      refine ⟨fun _ watch => other (congrArg some watch), fun _ => ⟨?_, ?_⟩⟩
      · rw [same, Program.raised]
      · rw [same]
        rfl
  | watches text same =>
      refine ⟨fun exact_ => ?_, fun other => absurd (Option.some.inj text) other⟩
      have returns := exact_.returns
      rw [same, Program.raised] at returns
      cases returns

theorem watch_reaches_nobody :
    ¬ DispatchesExactly sampleEnv (ofString "watch") (some [ofString "a(d53f5b8e)"]) := by
  intro exact_
  have queues := exact_.queues
  revert queues
  decide +kernel

end Nenes
