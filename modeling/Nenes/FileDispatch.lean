import Nenes.FileFrames
import Nenes.RequestThread

set_option autoImplicit false

namespace Nenes

open ByteBuf Runs NFileCommand

variable {Ch : Type}

-- The headers an agent is owed: one for each requested file that can be read.
-- The bodies are left to the headers' listeners.
def fileHeaders [FileSystem] (env : Env Ch) (paths : List JString) (ch : Ch) : List (Ch × Part × Bytes) :=
  paths.filterMap fun path => (env.read path).map fun content => (ch, .header, initializeProtocol path content.length)

def headersFor [FileSystem] (env : Env Ch) (paths : List JString) (element : JString) : List (Ch × Part × Bytes) :=
  match target env element with
  | none => []
  | some ch => fileHeaders env paths ch

def fileWrites [FileSystem] (env : Env Ch) (paths agentNames : List JString) : List (Ch × Part × Bytes) :=
  agentNames.flatMap (headersFor env paths)

structure DispatchesFiles [FileSystem] (env : Env Ch) (conf : Option Configuration) (fileMessage : FileMessage) : Prop where
  returns : (sendCommand conf fileMessage : Program Ch).raised env = none
  queues : (sendCommand conf fileMessage : Program Ch).queued env =
    fileWrites env (requestPaths (workspaceOf conf) fileMessage (fileMessage.fileList.getD [])) (fileMessage.agent.getD [])

theorem headers_append [FileSystem] (env : Env Ch) (a b : List JString) (element : JString) :
    headersFor env (a ++ b) element = headersFor env a element ++ headersFor env b element := by
  cases found : target env element with
  | none => simp [headersFor, found]
  | some ch => simp [headersFor, found, fileHeaders]

theorem send_files_queued [FileSystem] (env : Env Ch) (element : JString) (next : Program Ch) (paths : List JString) :
    (sendFiles element next paths).queued env = headersFor env paths element ++ next.queued env := by
  induction paths with
  | nil =>
      cases found : target env element with
      | none => simp [sendFiles, headersFor, found]
      | some ch => simp [sendFiles, headersFor, found, fileHeaders]
  | cons path rest ih =>
      rw [sendFiles]
      cases found : target env element with
      | none =>
          rw [skips_queued env _ _ (send_file_absent env path element _ (.inl found)), ih]
          simp [headersFor, found]
      | some ch =>
          cases file : env.read path with
          | none =>
              rw [skips_queued env _ _ (send_file_absent env path element _ (.inr file)), ih]
              simp [headersFor, found, fileHeaders, file]
          | some content =>
              rw [skips_queued env _ _ (send_file_present env ch path element content _ found file), Program.queued, ih]
              simp [headersFor, found, fileHeaders, file]

theorem send_files_raised [FileSystem] (env : Env Ch) (element : JString) (next : Program Ch) (paths : List JString) :
    (sendFiles element next paths).raised env = next.raised env := by
  induction paths with
  | nil => rfl
  | cons path rest ih =>
      rw [sendFiles]
      cases found : target env element with
      | none => rw [skips_raised env _ _ (send_file_absent env path element _ (.inl found)), ih]
      | some ch =>
          cases file : env.read path with
          | none => rw [skips_raised env _ _ (send_file_absent env path element _ (.inr file)), ih]
          | some content =>
              rw [skips_raised env _ _ (send_file_present env ch path element content _ found file), Program.raised, ih]

theorem file_loop_queued [FileSystem] (env : Env Ch) (workspace : Option JString) (fileMessage : FileMessage)
    (fileList : List JString) (listed : fileMessage.fileList = some fileList) (agentNames : List JString) :
    (sendLoop workspace fileMessage agentNames : Program Ch).queued env =
      fileWrites env (requestPaths workspace fileMessage fileList) agentNames := by
  induction agentNames with
  | nil => rfl
  | cons element rest ih =>
      rw [send_round workspace fileMessage fileList listed, send_files_queued, send_files_queued, ih,
        fileWrites, fileWrites, List.flatMap_cons, requestPaths, headers_append, List.append_assoc]

theorem file_loop_raised [FileSystem] (env : Env Ch) (workspace : Option JString) (fileMessage : FileMessage)
    (fileList : List JString) (listed : fileMessage.fileList = some fileList) (agentNames : List JString) :
    (sendLoop workspace fileMessage agentNames : Program Ch).raised env = none := by
  induction agentNames with
  | nil => rfl
  | cons element rest ih =>
      rw [send_round workspace fileMessage fileList listed, send_files_raised, send_files_raised, ih]

-- The first listed agent, known or not, gets its typed file; then the missing
-- list ends the request.
theorem missing_list_raises [FileSystem] (env : Env Ch) (workspace : Option JString) (fileMessage : FileMessage)
    (missing : fileMessage.fileList = none) (element : JString) (rest : List JString) :
    (sendLoop workspace fileMessage (element :: rest) : Program Ch).queued env =
        headersFor env (typedFiles fileMessage) element ∧
      (sendLoop workspace fileMessage (element :: rest) : Program Ch).raised env = some .nullPointer := by
  rw [sendLoop, missing]
  exact ⟨by rw [send_files_queued, Program.queued, List.append_nil], by rw [send_files_raised, Program.raised]⟩

theorem send_command_loops [FileSystem] (conf : Configuration) (fileMessage : FileMessage) :
    (sendCommand (some conf) fileMessage : Program Ch) =
      sendLoop conf.fileDirectory fileMessage (fileMessage.agent.getD []) := by
  rw [sendCommand]
  cases fileMessage.agent with
  | none => rfl
  | some agentNames => rfl

theorem dispatches_files [FileSystem] (env : Env Ch) (conf : Option Configuration) (fileMessage : FileMessage) :
    DispatchesFiles env conf fileMessage ↔
      conf ≠ none ∧ (fileMessage.fileList = none → fileMessage.agent.getD [] = []) := by
  cases conf with
  | none => exact ⟨fun dispatches => (nomatch dispatches.returns), fun guarded => absurd rfl guarded.1⟩
  | some conf =>
      have same : (sendCommand (some conf) fileMessage : Program Ch) = _ := send_command_loops conf fileMessage
      cases listed : fileMessage.fileList with
      | some fileList =>
          refine ⟨fun _ => ⟨by simp, nofun⟩, fun _ => ⟨?_, ?_⟩⟩
          · rw [same, file_loop_raised env conf.fileDirectory fileMessage fileList listed]
          · rw [same, file_loop_queued env conf.fileDirectory fileMessage fileList listed, listed]
            rfl
      | none =>
          cases names : fileMessage.agent.getD [] with
          | nil =>
              rw [names] at same
              refine ⟨fun _ => ⟨by simp, fun _ => rfl⟩, fun _ => ⟨by rw [same]; rfl, ?_⟩⟩
              rw [same, names]
              rfl
          | cons element rest =>
              refine ⟨fun dispatches => ?_, fun guarded => absurd (guarded.2 rfl) (List.cons_ne_nil element rest)⟩
              have returns := dispatches.returns
              rw [same, names, (missing_list_raises env conf.fileDirectory fileMessage listed element rest).2] at returns
              cases returns

def typedOnly : FileMessage :=
  ⟨some (ofString "/w/f"), some [ofString "a(d53f5b8e)", ofString "a(d53f5b8e)"], none⟩

open Unix

theorem typed_file_serves_first_agent :
    ¬ DispatchesFiles sampleEnv (some ⟨some (ofString "/w"), none⟩) typedOnly := by
  intro dispatches
  have queues := dispatches.queues
  revert queues
  decide +kernel

end Nenes
