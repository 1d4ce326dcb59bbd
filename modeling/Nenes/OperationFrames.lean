import Mathlib.Data.List.Permutation
import Nenes.Codec
import Nenes.PairedWrites

set_option autoImplicit false

namespace Nenes

open ByteBuf SplitFrames Runs NOperationCommand

variable {Ch : Type} [DecidableEq Ch]

def operationParts (msg : JString) : Frame UInt8 := ⟨initializeProtocol msg, getBytes msg⟩

theorem operation_parts_bytes (msg : JString) : (operationParts msg).bytes = operationFrame msg := rfl

-- The message, once for each time the request selects the active channel.
def selections (env : Env Ch) (ch : Ch) (message : Message) : List JString :=
  match message.msg, message.agent with
  | some msg, some agentNames => (agentNames.filter fun element => target env element = some ch).map fun _ => msg
  | _, _ => []

omit [DecidableEq Ch] in
theorem send_loop_absent (env : Env Ch) (msg element : JString) (rest : List JString) (absent : target env element = none) :
    Skips env (sendLoop msg (element :: rest)) (sendLoop msg rest) := by
  apply Skips.get
  cases found : env.get element with
  | none => exact .here _
  | some ch =>
      apply Skips.isActive
      cases active : env.isActive ch with
      | false => exact .here _
      | true => simp [target, found, active] at absent

omit [DecidableEq Ch] in
theorem send_loop_present (env : Env Ch) (ch : Ch) (msg element : JString) (rest : List JString)
    (present : target env element = some ch) :
    Skips env (sendLoop msg (element :: rest))
      (.writeAndFlush ch .header (initializeProtocol msg) .done
        (.writeAndFlush ch .body (getBytes msg) .done (sendLoop msg rest))) := by
  obtain ⟨found, active⟩ := Option.filter_eq_some_iff.mp present
  apply Skips.get
  rw [found]
  apply Skips.isActive
  rw [active]
  exact .here _

theorem send_loop_due (env : Env Ch) (ch : Ch) (msg : JString) (agentNames : List JString) :
    bodyDue env ch (sendLoop msg agentNames) = none := by
  induction agentNames with
  | nil => rfl
  | cons element rest ih =>
      cases found : target env element with
      | none => rw [skips_due env ch _ _ (send_loop_absent env msg element rest found), ih]
      | some other =>
          rw [skips_due env ch _ _ (send_loop_present env other msg element rest found)]
          simp [bodyDue]

theorem send_loop_frames (env : Env Ch) (ch : Ch) (msg : JString) (agentNames : List JString) :
    framesOn env ch (sendLoop msg agentNames) =
      (agentNames.filter fun element => target env element = some ch).map fun _ => operationParts msg := by
  induction agentNames with
  | nil => rfl
  | cons element rest ih =>
      cases found : target env element with
      | none =>
          rw [skips_frames env ch _ _ (send_loop_absent env msg element rest found), ih,
            List.filter_cons_of_neg (by simp [found])]
      | some other =>
          rw [skips_frames env ch _ _ (send_loop_present env other msg element rest found)]
          by_cases here : other = ch
          · rw [List.filter_cons_of_pos (by simp [found, here]), List.map_cons, ← ih]
            simp [framesOn, bodyDue, operationParts, here]
          · rw [List.filter_cons_of_neg (by simp [found, here]), ← ih]
            simp [framesOn, here]

theorem send_loop_paired (env : Env Ch) (msg : JString) (agentNames : List JString) :
    Paired env (sendLoop msg agentNames) := by
  induction agentNames with
  | nil => trivial
  | cons element rest ih =>
      cases found : target env element with
      | none => exact skips_paired env _ _ (send_loop_absent env msg element rest found) ih
      | some other =>
          apply skips_paired env _ _ (send_loop_present env other msg element rest found)
          refine ⟨trivial, ⟨trivial, ih, fun _ => rfl, fun ch => ?_⟩, fun _ => rfl, getBytes msg, fun ch => ?_⟩
          · simp [bodiesAfter, bodyDue, send_loop_due]
          · by_cases here : other = ch
            · simp [bodiesAfter, bodyDue, here]
            · simp [bodiesAfter, bodyDue, here, Ne.symm here]

theorem send_command_paired (env : Env Ch) (message : Message) : Paired env (sendCommand message) := by
  cases send_command_cases Ch message with
  | loops msg agentNames _ _ _ same =>
      rw [same]
      exact send_loop_paired env msg agentNames
  | nothing _ _ same =>
      rw [same]
      trivial
  | watches _ same =>
      rw [same]
      trivial

theorem send_command_due (env : Env Ch) (ch : Ch) (message : Message) : bodyDue env ch (sendCommand message) = none := by
  cases send_command_cases Ch message with
  | loops msg agentNames _ _ _ same => rw [same, send_loop_due]
  | nothing _ _ same =>
      rw [same]
      rfl
  | watches _ same =>
      rw [same]
      rfl

theorem send_command_frames (env : Env Ch) (ch : Ch) (message : Message) (notWatch : message.msg ≠ some (ofString "watch")) :
    framesOn env ch (sendCommand message) = (selections env ch message).map operationParts := by
  cases send_command_cases Ch message with
  | loops msg agentNames text _ names same =>
      rw [same, send_loop_frames, selections, text, names, List.map_map]
      rfl
  | nothing missing _ same =>
      rw [same, framesOn, selections]
      rcases missing with none | none
      · simp [none]
      · cases message.msg <;> simp [none]
  | watches text _ => exact False.elim (notWatch text)

def operationRequests (requests : List Message) : Pool Ch := Pool.start (requests.map sendCommand)

def selectedFrames (env : Env Ch) (ch : Ch) (requests : List Message) : List (Frame UInt8) :=
  (requests.flatMap (selections env ch)).map operationParts

-- No request has the text watch, which ends it before anything is sent, and no
-- header is queued between another one and its payload.
theorem operation_frames_whole (env : Env Ch) (ch : Ch) (requests : List Message) (schedule : List Nat)
    (notWatch : ∀ message ∈ requests, message.msg ≠ some (ofString "watch"))
    (guarded : Along (Pool.proceed env) (KeepsFramesWhole env ch) (operationRequests requests) schedule) :
    ∃ order, order.Subperm (selectedFrames env ch requests) ∧
      bytesOn ch (run (Pool.proceed env) (operationRequests requests) schedule).log ++
        (due env ch (run (Pool.proceed env) (operationRequests requests) schedule).tasks).flatten = concat order ∧
      ((run (Pool.proceed env) (operationRequests requests) schedule).Finished →
        order.Perm (selectedFrames env ch requests) ∧
          bytesOn ch (run (Pool.proceed env) (operationRequests requests) schedule).log = concat order) := by
  have whole : FramesWhole env ch (operationRequests requests) [] := by
    apply frames_whole_start
    · simp only [List.mem_map]
      rintro _ ⟨message, _, rfl⟩
      exact send_command_paired env message
    · simp only [List.mem_map]
      rintro _ ⟨message, _, rfl⟩
      exact send_command_due env ch message
  have selected : (remaining env ch (operationRequests requests).tasks).flatten = selectedFrames env ch requests := by
    rw [operationRequests, start_remaining, List.map_map, ← List.flatMap_def, selectedFrames, List.map_flatMap]
    exact List.flatMap_congr fun message member => send_command_frames env ch message (notWatch message member)
  rw [← selected]
  exact frames_in_some_order env ch _ schedule whole guarded

def sampleEnv : Env Nat where
  get element := if element = ofString "a(d53f5b8e)" then some 0 else none
  isActive _ := true
  read path := if path = ofString "/w/f" then some [1] else if path = ofString "/w/g" then some [2] else none

def sampleRequest (msg : String) : Message := ⟨some (ofString msg), some [ofString "a(d53f5b8e)"]⟩

def concurrentRequests : List Message := [sampleRequest "ls", sampleRequest "ps"]

-- The lookups interleave, the writes of a frame do not.
theorem two_requests_whole :
    ∃ order, order.Subperm (selectedFrames sampleEnv 0 concurrentRequests) ∧
      bytesOn 0 (run (Pool.proceed sampleEnv) (operationRequests concurrentRequests) [0, 1, 1, 0, 1, 1, 0, 0]).log ++
        (due sampleEnv 0 (run (Pool.proceed sampleEnv) (operationRequests concurrentRequests) [0, 1, 1, 0, 1, 1, 0, 0]).tasks).flatten =
        concat order ∧
      ((run (Pool.proceed sampleEnv) (operationRequests concurrentRequests) [0, 1, 1, 0, 1, 1, 0, 0]).Finished →
        order.Perm (selectedFrames sampleEnv 0 concurrentRequests) ∧
          bytesOn 0 (run (Pool.proceed sampleEnv) (operationRequests concurrentRequests) [0, 1, 1, 0, 1, 1, 0, 0]).log =
            concat order) :=
  operation_frames_whole sampleEnv 0 concurrentRequests [0, 1, 1, 0, 1, 1, 0, 0] (by decide +kernel) (by decide +kernel)

theorem interleaved_requests_tear_frames :
    (run (Pool.proceed sampleEnv) (operationRequests concurrentRequests) [0, 0, 1, 1, 0, 1, 0, 1]).Finished ∧
    ¬ ∃ order, order.Perm (selectedFrames sampleEnv 0 concurrentRequests) ∧
      bytesOn 0 (run (Pool.proceed sampleEnv) (operationRequests concurrentRequests) [0, 0, 1, 1, 0, 1, 0, 1]).log =
        concat order := by
  refine ⟨by decide +kernel, ?_⟩
  rintro ⟨order, perm, same⟩
  have torn : ∀ order ∈ (selectedFrames sampleEnv 0 concurrentRequests).permutations',
      bytesOn 0 (run (Pool.proceed sampleEnv) (operationRequests concurrentRequests) [0, 0, 1, 1, 0, 1, 0, 1]).log ≠
        concat order := by
    decide +kernel
  exact torn order (List.mem_permutations'.mpr perm) same

end Nenes
