import Nenes.OperationFrames

set_option autoImplicit false

namespace Nenes

open ByteBuf SplitFrames Runs NFileCommand

variable {Ch : Type} [DecidableEq Ch]

def fileParts [FileSystem] (path : JString) (content : Bytes) : Frame UInt8 := ⟨initializeProtocol path content.length, content⟩

theorem file_parts_bytes [FileSystem] (path : JString) (content : Bytes) :
    (fileParts path content).bytes = fileFrame path content := rfl

def readable [FileSystem] (env : Env Ch) (paths : List JString) : List (Frame UInt8) :=
  paths.filterMap fun path => (env.read path).map (fileParts path)

theorem operation_complete_due [FileSystem] (env : Env Ch) (ch other : Ch) (msg element : JString) :
    bodyDue env ch (operationComplete other msg element) = if other = ch then env.read msg else none := by
  rw [operationComplete, bodyDue]
  cases env.read msg with
  | none => simp [bodyDue]
  | some content => simp [bodyDue]

theorem operation_complete_frames [FileSystem] (env : Env Ch) (ch other : Ch) (msg element : JString) :
    framesOn env ch (operationComplete other msg element) = [] := by
  rw [operationComplete, framesOn]
  cases env.read msg with
  | none => rfl
  | some content => simp [framesOn]

theorem operation_complete_paired [FileSystem] (env : Env Ch) (other : Ch) (msg element : JString) :
    Paired env (operationComplete other msg element) := by
  rw [operationComplete, Paired]
  cases env.read msg with
  | none => trivial
  | some content => exact ⟨trivial, trivial, fun _ => rfl, fun _ => rfl⟩

omit [DecidableEq Ch] in
theorem send_file_absent [FileSystem] (env : Env Ch) (msg element : JString) (next : Program Ch)
    (absent : target env element = none ∨ env.read msg = none) : Skips env (sendFile msg element next) next := by
  apply Skips.get
  cases found : env.get element with
  | none => exact .here _
  | some ch =>
      apply Skips.isActive
      cases active : env.isActive ch with
      | false => exact .here _
      | true =>
          apply Skips.read
          rcases absent with absent | missing
          · simp [target, found, active] at absent
          · rw [missing]
            exact .here _

omit [DecidableEq Ch] in
theorem send_file_present [FileSystem] (env : Env Ch) (ch : Ch) (msg element : JString) (content : Bytes) (next : Program Ch)
    (present : target env element = some ch) (exists_ : env.read msg = some content) :
    Skips env (sendFile msg element next)
      (.writeAndFlush ch .header (initializeProtocol msg content.length) (operationComplete ch msg element) next) := by
  obtain ⟨found, active⟩ := Option.filter_eq_some_iff.mp present
  apply Skips.get
  rw [found]
  apply Skips.isActive
  rw [active]
  apply Skips.read
  rw [exists_]
  apply Skips.read
  rw [exists_]
  exact .here _

theorem send_files_due [FileSystem] (env : Env Ch) (ch : Ch) (element : JString) (next : Program Ch) (paths : List JString)
    (free : bodyDue env ch next = none) : bodyDue env ch (sendFiles element next paths) = none := by
  induction paths with
  | nil => exact free
  | cons msg rest ih =>
      rw [sendFiles]
      cases found : target env element with
      | none => rw [skips_due env ch _ _ (send_file_absent env msg element _ (.inl found)), ih]
      | some other =>
          cases file : env.read msg with
          | none => rw [skips_due env ch _ _ (send_file_absent env msg element _ (.inr file)), ih]
          | some content =>
              rw [skips_due env ch _ _ (send_file_present env other msg element content _ found file)]
              simp [bodyDue]

theorem send_files_frames [FileSystem] (env : Env Ch) (ch : Ch) (element : JString) (next : Program Ch) (paths : List JString) :
    framesOn env ch (sendFiles element next paths) =
      (if target env element = some ch then readable env paths else []) ++ framesOn env ch next := by
  induction paths with
  | nil => simp [sendFiles, readable]
  | cons msg rest ih =>
      rw [sendFiles]
      cases found : target env element with
      | none =>
          rw [skips_frames env ch _ _ (send_file_absent env msg element _ (.inl found)), ih, found]
          simp
      | some other =>
          cases file : env.read msg with
          | none =>
              rw [skips_frames env ch _ _ (send_file_absent env msg element _ (.inr file)), ih, found]
              simp [readable, file]
          | some content =>
              rw [skips_frames env ch _ _ (send_file_present env other msg element content _ found file)]
              by_cases here : other = ch
              · simp [framesOn, here, operation_complete_due, file, ih, found, readable, fileParts]
              · simp [framesOn, here, ih, found]

theorem send_files_paired [FileSystem] (env : Env Ch) (element : JString) (next : Program Ch) (paths : List JString)
    (free : ∀ ch, bodyDue env ch next = none) (paired : Paired env next) : Paired env (sendFiles element next paths) := by
  induction paths with
  | nil => exact paired
  | cons msg rest ih =>
      rw [sendFiles]
      cases found : target env element with
      | none => exact skips_paired env _ _ (send_file_absent env msg element _ (.inl found)) ih
      | some other =>
          cases file : env.read msg with
          | none => exact skips_paired env _ _ (send_file_absent env msg element _ (.inr file)) ih
          | some content =>
              apply skips_paired env _ _ (send_file_present env other msg element content _ found file)
              refine ⟨operation_complete_paired env other msg element, ih,
                fun ch => operation_complete_frames env ch other msg element, content, fun ch => ?_⟩
              rw [bodiesAfter, operation_complete_due, send_files_due env ch element next rest (free ch)]
              by_cases here : other = ch
              · simp [here, file]
              · simp [here, Ne.symm here]

def filesSent [FileSystem] (env : Env Ch) (ch : Ch) (paths agentNames : List JString) : List (Frame UInt8) :=
  (agentNames.filter fun element => target env element = some ch).flatMap fun _ => readable env paths

def requestPaths [FileSystem] (workspace : Option JString) (fileMessage : FileMessage)
    (fileList : List JString) : List JString :=
  typedFiles fileMessage ++ fileList.map (selectedPath workspace)

omit [DecidableEq Ch] in
theorem send_round [FileSystem] (workspace : Option JString) (fileMessage : FileMessage) (fileList : List JString)
    (listed : fileMessage.fileList = some fileList) (element : JString) (rest : List JString) :
    (sendLoop workspace fileMessage (element :: rest) : Program Ch) =
      sendFiles element (sendFiles element (sendLoop workspace fileMessage rest) (fileList.map (selectedPath workspace)))
        (typedFiles fileMessage) := by
  rw [sendLoop, listed]

theorem file_loop_due [FileSystem] (env : Env Ch) (ch : Ch) (workspace : Option JString) (fileMessage : FileMessage)
    (fileList : List JString) (listed : fileMessage.fileList = some fileList) (agentNames : List JString) :
    bodyDue env ch (sendLoop workspace fileMessage agentNames) = none := by
  induction agentNames with
  | nil => rfl
  | cons element rest ih =>
      rw [send_round workspace fileMessage fileList listed]
      exact send_files_due env ch element _ _ (send_files_due env ch element _ _ ih)

theorem file_loop_paired [FileSystem] (env : Env Ch) (workspace : Option JString) (fileMessage : FileMessage)
    (fileList : List JString) (listed : fileMessage.fileList = some fileList) (agentNames : List JString) :
    Paired env (sendLoop workspace fileMessage agentNames) := by
  induction agentNames with
  | nil => trivial
  | cons element rest ih =>
      have free := fun ch => file_loop_due env ch workspace fileMessage fileList listed rest
      rw [send_round workspace fileMessage fileList listed]
      apply send_files_paired
      · exact fun ch => send_files_due env ch element _ _ (free ch)
      · exact send_files_paired env element _ _ free ih

theorem file_loop_frames [FileSystem] (env : Env Ch) (ch : Ch) (workspace : Option JString) (fileMessage : FileMessage)
    (fileList : List JString) (listed : fileMessage.fileList = some fileList) (agentNames : List JString) :
    framesOn env ch (sendLoop workspace fileMessage agentNames) =
      filesSent env ch (requestPaths workspace fileMessage fileList) agentNames := by
  induction agentNames with
  | nil => rfl
  | cons element rest ih =>
      rw [send_round workspace fileMessage fileList listed, send_files_frames, send_files_frames, ih]
      by_cases here : target env element = some ch
      · simp [filesSent, requestPaths, readable, here]
      · simp [filesSent, here]

structure FileRequest where
  conf : Configuration
  fileName : Option JString
  agentNames : List JString
  fileList : List JString

namespace FileRequest

def message (request : FileRequest) : FileMessage := ⟨request.fileName, some request.agentNames, some request.fileList⟩

def pool [FileSystem] (request : FileRequest) : Pool Ch := Pool.start [sendCommand (some request.conf) request.message]

def frames [FileSystem] (env : Env Ch) (ch : Ch) (request : FileRequest) : List (Frame UInt8) :=
  filesSent env ch (requestPaths request.conf.fileDirectory request.message request.fileList) request.agentNames

end FileRequest

-- One request with its listeners, which may run at any time: the condition is
-- that each header's listener has queued the file before the next header.
theorem file_frames_whole [FileSystem] (env : Env Ch) (ch : Ch) (request : FileRequest) (schedule : List Nat)
    (guarded : Along (Pool.proceed env) (KeepsFramesWhole env ch) request.pool schedule) :
    ∃ sent, sent <+: request.frames env ch ∧
      bytesOn ch (run (Pool.proceed env) request.pool schedule).log ++
        (due env ch (run (Pool.proceed env) request.pool schedule).tasks).flatten = concat sent ∧
      ((run (Pool.proceed env) request.pool schedule).Finished →
        bytesOn ch (run (Pool.proceed env) request.pool schedule).log = concat (request.frames env ch)) := by
  apply frames_in_request_order env ch _ schedule _ _ _ guarded
  · apply frames_whole_start
    · simp only [List.mem_singleton, forall_eq]
      exact file_loop_paired env request.conf.fileDirectory request.message request.fileList rfl request.agentNames
    · simp only [List.mem_singleton, forall_eq]
      exact file_loop_due env ch request.conf.fileDirectory request.message request.fileList rfl request.agentNames
  · rw [FileRequest.pool, start_remaining, List.map_singleton]
    exact congrArg (fun frames => [frames])
      (file_loop_frames env ch request.conf.fileDirectory request.message request.fileList rfl request.agentNames)

def sampleFiles : FileRequest := ⟨⟨some (ofString "/w"), none⟩, none, [ofString "a(d53f5b8e)"], [ofString "f", ofString "g"]⟩

def promptListener : List Nat := [0, 0, 0, 0, 0, 1, 1, 2, 0, 0, 0, 0, 0, 3, 3, 4]

def slowListener : List Nat := [0, 0, 0, 0, 0, 0, 0, 0, 0, 0, 1, 1, 2, 2, 3, 4]

open Unix

theorem prompt_listener_whole :
    ∃ sent, sent <+: sampleFiles.frames sampleEnv 0 ∧
      bytesOn 0 (run (Pool.proceed sampleEnv) sampleFiles.pool promptListener).log ++
        (due sampleEnv 0 (run (Pool.proceed sampleEnv) sampleFiles.pool promptListener).tasks).flatten = concat sent ∧
      ((run (Pool.proceed sampleEnv) sampleFiles.pool promptListener).Finished →
        bytesOn 0 (run (Pool.proceed sampleEnv) sampleFiles.pool promptListener).log =
          concat (sampleFiles.frames sampleEnv 0)) :=
  file_frames_whole sampleEnv 0 sampleFiles promptListener (by decide +kernel)

theorem slow_listener_tears_frames :
    (run (Pool.proceed sampleEnv) sampleFiles.pool slowListener).Finished ∧
      bytesOn 0 (run (Pool.proceed sampleEnv) sampleFiles.pool slowListener).log ≠ concat (sampleFiles.frames sampleEnv 0) := by
  decide +kernel

end Nenes
