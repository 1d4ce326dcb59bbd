import Nenes.Base.EventLog
import Nenes.ChannelManager
import Nenes.NFileCommand
import Nenes.NOperationCommand

set_option autoImplicit false

namespace Nenes

open ByteBuf OperationServerHandler Runs EventLog

variable {Ch : Type} [DecidableEq Ch]

structure System (Ch : Type) where
  server : Server Ch
  active : Ch → Bool
  pool : Pool Ch

inductive Action (Ch : Type) where
  | channelActive (c : Ch)
  | channelRead0 (c : Ch) (msg : Chunk)
  | close (c : Ch)
  | channelInactive (c : Ch)
  | noperation (message : Message)
  | nfile (conf : Option Configuration) (fileMessage : FileMessage)
  | proceed (i : Nat) (files : JString → Option Bytes)

namespace System

def start : System Ch := ⟨Server.start, fun _ => false, ⟨[], []⟩⟩

def env (s : System Ch) (files : JString → Option Bytes) : Env Ch :=
  ⟨fun element => s.server.map.lookup element, s.active, files⟩

def request (s : System Ch) (program : Program Ch) : System Ch :=
  { s with pool := { s.pool with tasks := s.pool.tasks ++ [⟨s.pool.tasks.length, program⟩] } }

-- channelActive only prints: the channel is registered by its JOIN.
def step [FileSystem] (id : Ch → JString) (s : System Ch) : Action Ch → System Ch
  | .channelActive c => { s with active := Function.update s.active c true }
  | .channelRead0 c msg =>
      { s with
        server := Server.call id s.server (.channelRead0 c msg)
        pool := { s.pool with log := s.pool.log ++ [.received c msg.bytes] } }
  | .close c => { s with active := Function.update s.active c false }
  | .channelInactive c => { s with server := Server.call id s.server (.channelInactive c) }
  | .noperation message => s.request (NOperationCommand.sendCommand message)
  | .nfile conf fileMessage => s.request (NFileCommand.sendCommand conf fileMessage)
  | .proceed i files => { s with pool := s.pool.proceed (s.env files) i }

end System

def SentJoin (bytes : Bytes) : Prop :=
  ∃ header dataSize rest, decodeHeader bytes = some (header, dataSize, rest) ∧ startsWith header opCodeJoin = true

def JoinReceived (log : List (Observation Ch)) (c : Ch) : Prop := ∃ bytes, .received c bytes ∈ log ∧ SentJoin bytes

def FoundActive (log : List (Observation Ch)) (request : Nat) (c : Ch) : Prop := .checked request c true ∈ log

def Justified (before : List (Observation Ch)) : Observation Ch → Prop
  | .queued request c _ _ => FoundActive before request c ∧ JoinReceived before c
  | _ => True

-- With these channels joined and these found active, the program writes to
-- joined channels it has found active only. What it looks up has joined.
def Gated (joined found : Ch → Prop) : Program Ch → Prop
  | .done => True
  | .raise _ => True
  | .get _ next => Gated joined found (next none) ∧ ∀ c, Gated (fun d => joined d ∨ d = c) found (next (some c))
  | .isActive c next => Gated joined (fun d => found d ∨ d = c) (next true) ∧ Gated joined found (next false)
  | .read _ next => ∀ content, Gated joined found (next content)
  | .publishEvent _ next => Gated joined found next
  | .writeAndFlush c _ _ listener next => found c ∧ joined c ∧ Gated joined found listener ∧ Gated joined found next

omit [DecidableEq Ch] in
theorem gated_weaken (program : Program Ch) (joined found joined' found' : Ch → Prop) (moreJoined : ∀ c, joined c → joined' c)
    (moreFound : ∀ c, found c → found' c) (gated : Gated joined found program) : Gated joined' found' program := by
  induction program generalizing joined found joined' found' with
  | done => trivial
  | raise exception => trivial
  | get element next ih =>
      refine ⟨ih none _ _ _ _ moreJoined moreFound gated.1, fun c => ?_⟩
      exact ih (some c) _ _ _ _ (fun d known => known.imp_left (moreJoined d)) moreFound (gated.2 c)
  | isActive c next ih =>
      refine ⟨?_, ih false _ _ _ _ moreJoined moreFound gated.2⟩
      exact ih true _ _ _ _ moreJoined (fun d known => known.imp_left (moreFound d)) gated.1
  | read path next ih => exact fun content => ih content _ _ _ _ moreJoined moreFound (gated content)
  | publishEvent data next ih => exact ih _ _ _ _ moreJoined moreFound gated
  | writeAndFlush c part buf listener next ihListener ihNext =>
      obtain ⟨active, known, gatedListener, gatedNext⟩ := gated
      exact ⟨moreFound c active, moreJoined c known, ihListener _ _ _ _ moreJoined moreFound gatedListener,
        ihNext _ _ _ _ moreJoined moreFound gatedNext⟩

omit [DecidableEq Ch] in
theorem operation_loop_gated (msg : JString) (agentNames : List JString) (joined found : Ch → Prop) :
    Gated joined found (NOperationCommand.sendLoop msg agentNames) := by
  induction agentNames generalizing joined found with
  | nil => trivial
  | cons element rest ih =>
      refine ⟨ih _ _, fun c => ⟨?_, ih _ _⟩⟩
      exact ⟨.inr rfl, .inr rfl, trivial, .inr rfl, .inr rfl, trivial, ih _ _⟩

omit [DecidableEq Ch] in
theorem operation_command_gated (message : Message) (joined found : Ch → Prop) :
    Gated joined found (NOperationCommand.sendCommand message) := by
  cases NOperationCommand.send_command_cases Ch message with
  | loops msg agentNames _ _ _ same =>
      rw [same]
      exact operation_loop_gated msg agentNames joined found
  | nothing _ _ same =>
      rw [same]
      trivial
  | watches _ same =>
      rw [same]
      trivial

omit [DecidableEq Ch] in
theorem send_files_gated [FileSystem] (element : JString) (next : Program Ch) (paths : List JString)
    (gated : ∀ joined found, Gated joined found next) (joined found : Ch → Prop) :
    Gated joined found (NFileCommand.sendFiles element next paths) := by
  induction paths generalizing joined found with
  | nil => exact gated joined found
  | cons msg rest ih =>
      refine ⟨ih _ _, fun c => ⟨fun exists_ => ?_, ih _ _⟩⟩
      cases exists_ with
      | none => exact ih _ _
      | some content =>
          refine fun file => ⟨.inr rfl, .inr rfl, fun opened => ?_, ih _ _⟩
          cases opened with
          | none => trivial
          | some content => exact ⟨.inr rfl, .inr rfl, trivial, trivial⟩

omit [DecidableEq Ch] in
theorem file_loop_gated [FileSystem] (workspace : Option JString) (fileMessage : FileMessage) (agentNames : List JString)
    (joined found : Ch → Prop) : Gated joined found (NFileCommand.sendLoop workspace fileMessage agentNames) := by
  induction agentNames generalizing joined found with
  | nil => trivial
  | cons element rest ih =>
      rw [NFileCommand.sendLoop]
      apply send_files_gated
      intro joined found
      cases fileMessage.fileList with
      | none => trivial
      | some fileList => exact send_files_gated element _ _ ih joined found

omit [DecidableEq Ch] in
theorem file_command_gated [FileSystem] (conf : Option Configuration) (fileMessage : FileMessage) (joined found : Ch → Prop) :
    Gated joined found (NFileCommand.sendCommand conf fileMessage) := by
  unfold NFileCommand.sendCommand
  cases conf with
  | none => trivial
  | some conf =>
      cases fileMessage.agent with
      | none => trivial
      | some agentNames => exact file_loop_gated conf.fileDirectory fileMessage agentNames joined found

structure JoinGate (s : System Ch) : Prop where
  supported : EachSupported Justified s.pool.log
  registered : ∀ key c, s.server.map.lookup key = some c → JoinReceived s.pool.log c
  gated : ∀ task ∈ s.pool.tasks, Gated (JoinReceived s.pool.log) (FoundActive s.pool.log task.request) task.program

omit [DecidableEq Ch] in
theorem join_gate_start : JoinGate (System.start : System Ch) where
  supported := each_supported_nil _
  registered := by simp [System.start, Server.start]
  gated := by simp [System.start]

omit [DecidableEq Ch] in
theorem join_received_append (log more : List (Observation Ch)) (c : Ch) (received : JoinReceived log c) :
    JoinReceived (log ++ more) c := by
  obtain ⟨bytes, member, join⟩ := received
  exact ⟨bytes, List.mem_append_left _ member, join⟩

omit [DecidableEq Ch] in
theorem found_active_append (log more : List (Observation Ch)) (request : Nat) (c : Ch)
    (found : FoundActive log request c) : FoundActive (log ++ more) request c := List.mem_append_left _ found

omit [DecidableEq Ch] in
theorem gated_append (log more : List (Observation Ch)) (request : Nat) (program : Program Ch)
    (gated : Gated (JoinReceived log) (FoundActive log request) program) :
    Gated (JoinReceived (log ++ more)) (FoundActive (log ++ more) request) program :=
  gated_weaken program _ _ _ _ (fun c => join_received_append log more c)
    (fun c => found_active_append log more request c) gated

omit [DecidableEq Ch] in
theorem joined_chunk_sent_join (id : Ch → JString) (s : Server Ch) (c : Ch) (msg : Chunk) (name : JString)
    (joined : Server.JoinsAs id s c msg name) : SentJoin msg.bytes := by
  obtain ⟨data, ⟨header, dataSize, rest, bytes, short, join, ⟨low, high⟩, _⟩, _⟩ := joined
  rw [bytes]
  exact ⟨_, _, _, decode_header_frame header (data ++ rest) dataSize short low high, join⟩

theorem join_gate_read [FileSystem] (id : Ch → JString) (s : System Ch) (c : Ch) (msg : Chunk) (gate : JoinGate s) :
    JoinGate (s.step id (.channelRead0 c msg)) where
  supported := each_supported_snoc _ _ _ gate.supported trivial
  registered := by
    intro key other found
    simp only [System.step] at found ⊢
    cases Server.call_read_cases id s.server c msg with
    | quiet _ _ next =>
        rw [next] at found
        exact join_received_append _ _ _ (gate.registered key other found)
    | joined joined next =>
        rw [next] at found
        rcases Server.lookup_joined s.server c other _ key found with ⟨_, rfl⟩ | ⟨_, before⟩
        · exact ⟨msg.bytes, by simp, joined_chunk_sent_join id s.server other msg _ joined⟩
        · exact join_received_append _ _ _ (gate.registered key other before)
  gated := fun task member => gated_append _ _ _ _ (gate.gated task member)

theorem join_gate_inactive [FileSystem] (id : Ch → JString) (s : System Ch) (c : Ch) (gate : JoinGate s) :
    JoinGate (s.step id (.channelInactive c)) where
  supported := gate.supported
  registered := by
    intro key other found
    simp only [System.step, Server.call_inactive] at found
    exact gate.registered key other (Server.lookup_after_inactive s.server c other key found).2
  gated := gate.gated

omit [DecidableEq Ch] in
theorem join_gate_request (s : System Ch) (program : Program Ch) (gate : JoinGate s)
    (gated : ∀ joined found, Gated joined found program) : JoinGate (s.request program) where
  supported := gate.supported
  registered := gate.registered
  gated := by
    intro task member
    rcases List.mem_append.mp member with old | new
    · exact gate.gated task old
    · rw [List.mem_singleton.mp new]
      exact gated _ _

omit [DecidableEq Ch] in
theorem observed_justified (env : Env Ch) (log : List (Observation Ch)) (request : Nat) (program : Program Ch)
    (supported : EachSupported Justified log) (gated : Gated (JoinReceived log) (FoundActive log request) program) :
    EachSupported Justified (log ++ program.observed env request) := by
  cases program with
  | isActive c next => exact each_supported_snoc _ _ _ supported trivial
  | publishEvent data next => exact each_supported_snoc _ _ _ supported trivial
  | writeAndFlush c part buf listener next => exact each_supported_snoc _ _ _ supported ⟨gated.1, gated.2.1⟩
  | _ =>
      simp only [Program.observed, List.append_nil]
      exact supported

omit [DecidableEq Ch] in
theorem next_gated (env : Env Ch) (log : List (Observation Ch)) (request : Nat) (program : Program Ch)
    (registered : ∀ element c, env.get element = some c → JoinReceived log c)
    (gated : Gated (JoinReceived log) (FoundActive log request) program) :
    Gated (JoinReceived (log ++ program.observed env request)) (FoundActive (log ++ program.observed env request) request)
      (program.next env) := by
  cases program with
  | done => trivial
  | raise exception => trivial
  | get element next =>
      apply gated_append log _ request
      rw [Program.next]
      cases found : env.get element with
      | none => exact gated.1
      | some c =>
          refine gated_weaken _ _ _ _ _ ?_ (fun _ known => known) (gated.2 c)
          rintro d (known | rfl)
          · exact known
          · exact registered element d found
  | isActive c next =>
      rw [Program.next]
      cases answer : env.isActive c with
      | false => exact gated_append _ _ _ _ gated.2
      | true =>
          refine gated_weaken _ _ _ _ _ (fun d => join_received_append log _ d) ?_ gated.1
          rintro d (known | rfl)
          · exact found_active_append log _ request d known
          · simp [FoundActive, Program.observed, answer]
  | read path next => exact gated_append _ _ _ _ (gated _)
  | publishEvent data next => exact gated_append _ _ _ _ gated
  | writeAndFlush c part buf listener next => exact gated_append _ _ _ _ gated.2.2.2

omit [DecidableEq Ch] in
theorem listeners_gated (log : List (Observation Ch)) (request : Nat) (program : Program Ch)
    (gated : Gated (JoinReceived log) (FoundActive log request) program) :
    ∀ listener ∈ program.listeners, Gated (JoinReceived log) (FoundActive log request) listener := by
  cases program with
  | writeAndFlush c part buf listener next =>
      simp only [Program.listeners, List.mem_singleton, forall_eq]
      exact gated.2.2.1
  | _ => simp [Program.listeners]

omit [DecidableEq Ch] in
theorem join_gate_proceed (s : System Ch) (i : Nat) (files : JString → Option Bytes) (gate : JoinGate s) :
    JoinGate { s with pool := s.pool.proceed (s.env files) i } := by
  cases Pool.proceed_cases (s.env files) s.pool i with
  | idle same =>
      rw [same]
      exact gate
  | taken left task right found before _ log =>
      have own := gate.gated task (by simp [before])
      have tasks := Pool.each_task_proceed (s.env files) s.pool i _
        (fun other => Gated (JoinReceived (s.pool.proceed (s.env files) i).log)
          (FoundActive (s.pool.proceed (s.env files) i).log other.request) other.program) gate.gated
      refine ⟨?_, ?_, tasks ?_ ?_⟩
      all_goals simp only [log]
      · exact observed_justified (s.env files) s.pool.log task.request task.program gate.supported own
      · intro key c listed
        exact join_received_append _ _ _ (gate.registered key c listed)
      · intro other known
        exact gated_append _ _ _ _ known
      · intro other same known
        rw [found] at same
        cases same
        exact ⟨next_gated (s.env files) s.pool.log task.request task.program gate.registered own,
          fun listener member => gated_append _ _ _ _ (listeners_gated _ _ _ own listener member)⟩

theorem join_gate_step [FileSystem] (id : Ch → JString) (s : System Ch) (action : Action Ch) (gate : JoinGate s) :
    JoinGate (s.step id action) := by
  cases action with
  | channelActive c => exact ⟨gate.supported, gate.registered, gate.gated⟩
  | channelRead0 c msg => exact join_gate_read id s c msg gate
  | close c => exact ⟨gate.supported, gate.registered, gate.gated⟩
  | channelInactive c => exact join_gate_inactive id s c gate
  | noperation message => exact join_gate_request s _ gate (operation_command_gated message)
  | nfile conf fileMessage => exact join_gate_request s _ gate (file_command_gated conf fileMessage)
  | proceed i files => exact join_gate_proceed s i files gate

theorem nothing_sent_before_join [FileSystem] (id : Ch → JString) (actions : List (Action Ch)) :
    ∀ before request c part buf after,
      (run (System.step id) System.start actions).pool.log = before ++ .queued request c part buf :: after →
        .checked request c true ∈ before ∧
        ∃ bytes, .received c bytes ∈ before ∧ ∃ header dataSize rest,
          decodeHeader bytes = some (header, dataSize, rest) ∧ startsWith header opCodeJoin = true := by
  intro before request c part buf after split
  have gate := invariant_run (System.step id) JoinGate (join_gate_step id) System.start actions join_gate_start
  exact gate.supported before _ after split

def sampleActions : List (Action Nat) :=
  [.channelActive 0, .channelRead0 0 chunkA,
    .noperation ⟨some (ofString "ls"), some [ofString "a(d53f5b8e)"]⟩,
    .proceed 0 fun _ => none, .proceed 0 fun _ => none, .proceed 0 fun _ => none]

open Unix

theorem sample_header_after_join :
    Observation.checked 0 0 true ∈
        [Observation.received 0 (joinFrame (getBytes (ofString "a"))), .checked 0 0 true] ∧
      ∃ bytes, Observation.received 0 bytes ∈
          [Observation.received 0 (joinFrame (getBytes (ofString "a"))), .checked 0 0 true] ∧
        ∃ header dataSize rest, decodeHeader bytes = some (header, dataSize, rest) ∧ startsWith header opCodeJoin = true :=
  nothing_sent_before_join sampleId sampleActions
    [.received 0 (joinFrame (getBytes (ofString "a"))), .checked 0 0 true] 0 0 .header
    (NOperationCommand.initializeProtocol (ofString "ls")) [] (by decide +kernel)

end Nenes
