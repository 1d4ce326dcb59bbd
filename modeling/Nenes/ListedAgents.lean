import Nenes.AccountedWrites
import Nenes.Base.Threads
import Nenes.MixedFrames

set_option autoImplicit false

namespace Nenes

open ByteBuf Threads

variable {Ch : Type} [DecidableEq Ch]

-- An agent that stays where it is while a request is served, and files that stay
-- as they are.
structure Steady (Ch : Type) where
  name : JString
  channel : Ch
  files : JString → Option Bytes

namespace Steady

-- The registry with this agent alone.
def env (steady : Steady Ch) : Env Ch :=
  ⟨fun element => if element = steady.name then some steady.channel else none, fun _ => true, steady.files⟩

-- The agent is found under its name and under no other that the request lists.
structure Stays [FileSystem] (steady : Steady Ch) (request : FrameRequest) (env : Env Ch) : Prop where
  found : env.get steady.name = some steady.channel
  alone : ∀ element ∈ (WebRequest.frames request).agents, env.get element = some steady.channel → element = steady.name
  active : env.isActive steady.channel = true
  files : ∀ path ∈ (WebRequest.frames request).paths, env.read path = steady.files path

instance [FileSystem] (steady : Steady Ch) (request : FrameRequest) (env : Env Ch) : Decidable (steady.Stays request env) :=
  decidable_of_iff
    (env.get steady.name = some steady.channel ∧
      (∀ element ∈ (WebRequest.frames request).agents, env.get element = some steady.channel → element = steady.name) ∧
        env.isActive steady.channel = true ∧ ∀ path ∈ (WebRequest.frames request).paths, env.read path = steady.files path)
    ⟨fun parts => ⟨parts.1, parts.2.1, parts.2.2.1, parts.2.2.2⟩,
      fun stays => ⟨stays.found, stays.alone, stays.active, stays.files⟩⟩

-- What the request is to send to the agent: what it would send to it alone.
def frames [FileSystem] (steady : Steady Ch)
    (request : FrameRequest) : List AgentFrame := request.sends steady.env steady.channel

end Steady

namespace AgentFrame

def headerWrite (frame : AgentFrame) : Part × Bytes := (.header, frame.parts.head)

def bodyWrite (frame : AgentFrame) : Part × Bytes := (.body, frame.parts.body)

def writes (frame : AgentFrame) : List (Part × Bytes) := [frame.headerWrite, frame.bodyWrite]

def pair (frame : AgentFrame) : (Part × Bytes) × (Part × Bytes) := (frame.headerWrite, frame.bodyWrite)

end AgentFrame

def writtenBy (n : Nat) (c : Ch) : Observation Ch → Option (Part × Bytes)
  | .queued m d part buf => if m = n ∧ d = c then some (part, buf) else none
  | _ => none

def writtenTo (n : Nat) (c : Ch) (log : List (Observation Ch)) : List (Part × Bytes) := log.filterMap (writtenBy n c)

-- What the program and its listeners have still to write to the agent, however
-- the other agents' lookups are answered.
def Owes (steady : Steady Ch) (names paths : List JString) : Program Ch → Thread (Part × Bytes) → Prop
  | .done, thread => thread = .done
  | .raise _, thread => thread = .done
  | .get element next, thread =>
      element ∈ names ∧
        if element = steady.name then Owes steady names paths (next (some steady.channel)) thread
        else ∀ found, found ≠ some steady.channel → Owes steady names paths (next found) thread
  | .isActive d next, thread =>
      if d = steady.channel then Owes steady names paths (next true) thread
      else ∀ answer, Owes steady names paths (next answer) thread
  | .read path next, thread => path ∈ paths ∧ Owes steady names paths (next (steady.files path)) thread
  | .publishEvent _ next, thread => Owes steady names paths next thread
  | .writeAndFlush d part buf listener next, thread =>
      if d = steady.channel then
        ∃ after onward, thread = .write (part, buf) after onward ∧ Owes steady names paths listener after ∧
          Owes steady names paths next onward
      else Owes steady names paths listener .done ∧ Owes steady names paths next thread

-- A call either writes what the thread has next, or leaves the thread alone with a
-- listener that has nothing for the agent.
inductive CallOwes (steady : Steady Ch) (names paths : List JString) (env : Env Ch) (program : Program Ch)
    (thread : Thread (Part × Bytes)) : Prop where
  | keeps (silent : ∀ n, writtenTo n steady.channel (program.observed env n) = [])
      (next : Owes steady names paths (program.next env) thread)
      (listeners : ∀ listener ∈ program.listeners, Owes steady names paths listener .done)
  | writes (part : Part) (buf : Bytes) (listener next : Program Ch) (after onward : Thread (Part × Bytes))
      (call : program = .writeAndFlush steady.channel part buf listener next) (owed : thread = .write (part, buf) after onward)
      (listens : Owes steady names paths listener after) (goesOn : Owes steady names paths next onward)

theorem call_owes [FileSystem] (steady : Steady Ch) (request : FrameRequest) (env : Env Ch) (stays : steady.Stays request env)
    (program : Program Ch) (thread : Thread (Part × Bytes))
    (owes : Owes steady (WebRequest.frames request).agents (WebRequest.frames request).paths program thread) :
    CallOwes steady (WebRequest.frames request).agents (WebRequest.frames request).paths env program thread := by
  cases program with
  | done => exact .keeps (fun _ => rfl) owes (by simp [Program.listeners])
  | raise exception => exact .keeps (fun _ => rfl) owes (by simp [Program.listeners])
  | get element next =>
      refine .keeps (fun _ => rfl) ?_ (by simp [Program.listeners])
      obtain ⟨listed, owes⟩ := owes
      rw [Program.next]
      split at owes
      · rename_i own
        rwa [own, stays.found]
      · rename_i other
        exact owes _ fun found => other (stays.alone element listed found)
  | isActive d next =>
      refine .keeps (fun _ => rfl) ?_ (by simp [Program.listeners])
      rw [Owes] at owes
      rw [Program.next]
      split at owes
      · rename_i own
        rwa [own, stays.active]
      · exact owes _
  | read path next =>
      refine .keeps (fun _ => rfl) ?_ (by simp [Program.listeners])
      rw [Program.next, stays.files path owes.1]
      exact owes.2
  | publishEvent data next => exact .keeps (fun _ => rfl) owes (by simp [Program.listeners])
  | writeAndFlush d part buf listener next =>
      rw [Owes] at owes
      split at owes
      · rename_i own
        subst own
        obtain ⟨after, onward, rfl, listens, goesOn⟩ := owes
        exact .writes part buf listener next after onward rfl rfl listens goesOn
      · rename_i other
        refine .keeps (fun n => ?_) owes.2 fun one member => ?_
        · simp [writtenTo, Program.observed, writtenBy, other]
        · rw [List.mem_singleton.mp member]
          exact owes.1

theorem owes_write_own (steady : Steady Ch) (names paths : List JString) (part : Part) (buf : Bytes) (listener next : Program Ch)
    (after onward : Thread (Part × Bytes)) (listens : Owes steady names paths listener after)
    (goesOn : Owes steady names paths next onward) :
    Owes steady names paths (.writeAndFlush steady.channel part buf listener next) (.write (part, buf) after onward) :=
  (if_pos rfl).mpr ⟨after, onward, rfl, listens, goesOn⟩

theorem owes_write_other (steady : Steady Ch) (names paths : List JString) (d : Ch) (part : Part) (buf : Bytes)
    (listener next : Program Ch) (thread : Thread (Part × Bytes)) (far : d ≠ steady.channel)
    (listens : Owes steady names paths listener .done) (goesOn : Owes steady names paths next thread) :
    Owes steady names paths (.writeAndFlush d part buf listener next) thread := (if_neg far).mpr ⟨listens, goesOn⟩

-- A lookup of the agent's name finds it open; any other finds somebody else.
theorem owes_lookup (steady : Steady Ch) (names paths : List JString) (element : JString) (absent : Program Ch)
    (present : Ch → Program Ch) (thread : Thread (Part × Bytes)) (listed : element ∈ names)
    (own : element = steady.name → Owes steady names paths (present steady.channel) thread)
    (other : element ≠ steady.name → Owes steady names paths absent thread ∧
      ∀ d, d ≠ steady.channel → Owes steady names paths (present d) thread) :
    Owes steady names paths (.get element fun
      | none => absent
      | some d => .isActive d fun
          | false => absent
          | true => present d) thread := by
  refine ⟨listed, ?_⟩
  split
  · rename_i same
    exact (if_pos rfl).mpr (own same)
  · rename_i different
    obtain ⟨without, elsewhere⟩ := other different
    intro found unfound
    cases found with
    | none => exact without
    | some d =>
        have far : d ≠ steady.channel := fun same => unfound (congrArg some same)
        refine (if_neg far).mpr fun answer => ?_
        cases answer with
        | false => exact without
        | true => exact elsewhere d far

-- A message is written by the request's own thread, header and text in turn.
def messageWrites (steady : Steady Ch) (msg : JString) (agentNames : List JString) : List (Part × Bytes) :=
  (agentNames.filter fun element => element = steady.name).flatMap fun _ =>
    [(.header, NOperationCommand.initializeProtocol msg), (.body, getBytes msg)]

theorem message_loop_owes (steady : Steady Ch) (names paths : List JString) (msg : JString) (agentNames : List JString)
    (listed : ∀ element ∈ agentNames, element ∈ names) :
    Owes steady names paths (NOperationCommand.sendLoop msg agentNames) (sequence (messageWrites steady msg agentNames)) := by
  induction agentNames with
  | nil => rfl
  | cons element rest ih =>
      obtain ⟨first, later⟩ := List.forall_mem_cons.mp listed
      have onward := ih later
      have ended : Owes steady names paths (.done : Program Ch) .done := rfl
      apply owes_lookup steady names paths element _ (fun d => .writeAndFlush d .header (NOperationCommand.initializeProtocol msg) .done
        (.writeAndFlush d .body (getBytes msg) .done (NOperationCommand.sendLoop msg rest))) _ first
      · intro own
        rw [messageWrites, List.filter_cons_of_pos (by simpa using own), List.flatMap_cons]
        exact owes_write_own steady names paths _ _ _ _ _ _ ended (owes_write_own steady names paths _ _ _ _ _ _ ended onward)
      · intro other
        rw [messageWrites, List.filter_cons_of_neg (by simpa using other), ← messageWrites]
        exact ⟨onward, fun d far => owes_write_other steady names paths d _ _ _ _ _ far ended
          (owes_write_other steady names paths d _ _ _ _ _ far ended onward)⟩

-- A round of the agent's own sends the files, each by its header's listener, and
-- another agent's round sends it none.
def roundThread [FileSystem] (steady : Steady Ch) (element : JString) (sent : List JString) (onward : Thread (Part × Bytes)) :
    Thread (Part × Bytes) :=
  if element = steady.name then answered ((opened steady.env sent).map AgentFrame.pair) onward else onward

theorem operation_complete_own [FileSystem] (steady : Steady Ch) (names paths : List JString) (path element : JString)
    (content : Bytes) (named : path ∈ paths) (file : steady.files path = some content) :
    Owes steady names paths (NFileCommand.operationComplete steady.channel path element) (single (.body, content)) := by
  refine ⟨named, ?_⟩
  rw [file]
  exact owes_write_own steady names paths .body content _ _ .done .done rfl rfl

theorem operation_complete_other [FileSystem] (steady : Steady Ch) (names paths : List JString) (d : Ch)
    (path element : JString) (far : d ≠ steady.channel) (named : path ∈ paths) :
    Owes steady names paths (NFileCommand.operationComplete d path element) .done := by
  refine ⟨named, ?_⟩
  cases steady.files path with
  | none => rfl
  | some content => exact owes_write_other steady names paths d .body content _ _ .done far rfl rfl

theorem send_files_owes [FileSystem] (steady : Steady Ch) (names paths : List JString) (element : JString) (next : Program Ch)
    (onward : Thread (Part × Bytes)) (listed : element ∈ names) (goesOn : Owes steady names paths next onward)
    (sent : List JString) (named : ∀ path ∈ sent, path ∈ paths) :
    Owes steady names paths (NFileCommand.sendFiles element next sent) (roundThread steady element sent onward) := by
  induction sent with
  | nil =>
      have nothing : roundThread steady element [] onward = onward := ite_self onward
      rwa [nothing]
  | cons path rest ih =>
      obtain ⟨here, later⟩ := List.forall_mem_cons.mp named
      have remaining := ih later
      rw [NFileCommand.sendFiles, NFileCommand.sendFile]
      apply owes_lookup steady names paths element _ _ _ listed
      · intro own
        subst own
        rw [roundThread, if_pos rfl] at remaining ⊢
        refine ⟨here, ?_⟩
        cases file : steady.files path with
        | none =>
            have skipped : opened steady.env (path :: rest) = opened steady.env rest := by simp [opened, Steady.env, file]
            rwa [skipped]
        | some content =>
            have frame : opened steady.env (path :: rest) = ⟨getName path, content⟩ :: opened steady.env rest := by
              simp [opened, Steady.env, file]
            refine ⟨here, ?_⟩
            rw [frame, file]
            exact owes_write_own steady names paths .header _ _ _ _ _
              (operation_complete_own steady names paths path steady.name content here file) remaining
      · intro other
        rw [roundThread, if_neg other] at remaining ⊢
        refine ⟨remaining, fun d far => ⟨here, ?_⟩⟩
        cases steady.files path with
        | none => exact remaining
        | some content =>
            exact ⟨here, owes_write_other steady names paths d .header _ _ _ _ far
              (operation_complete_other steady names paths d path element far here) remaining⟩

omit [DecidableEq Ch] in
theorem round_append [FileSystem] (steady : Steady Ch) (element : JString) (first later : List JString)
    (onward : Thread (Part × Bytes)) :
    roundThread steady element (first ++ later) onward =
      roundThread steady element first (roundThread steady element later onward) := by
  rw [roundThread, roundThread, roundThread]
  split
  · rw [opened, List.filterMap_append, List.map_append, answered_append]
    rfl
  · rfl

omit [DecidableEq Ch] in
theorem steady_target (steady : Steady Ch) (element : JString) :
    target steady.env element = some steady.channel ↔ element = steady.name := by
  rw [target, Steady.env]
  by_cases own : element = steady.name
  · simp [own]
  · simp [own]

theorem rounds_cons [FileSystem] (steady : Steady Ch) (sent : List JString) (element : JString) (rest : List JString)
    (onward : Thread (Part × Bytes)) :
    answered ((fileSends steady.env steady.channel sent (element :: rest)).map AgentFrame.pair) onward =
      roundThread steady element sent
        (answered ((fileSends steady.env steady.channel sent rest).map AgentFrame.pair) onward) := by
  rw [roundThread, fileSends]
  by_cases own : element = steady.name
  · rw [if_pos own, List.filter_cons_of_pos (by simp [steady_target, own]), List.flatMap_cons, List.map_append, answered_append]
    rfl
  · rw [if_neg own, List.filter_cons_of_neg (by simpa [steady_target] using own)]
    rfl

theorem file_loop_owes [FileSystem] (steady : Steady Ch) (names paths : List JString) (workspace : Option JString)
    (fileMessage : FileMessage)
    (fileList : List JString) (present : fileMessage.fileList = some fileList) (agentNames : List JString)
    (listed : ∀ element ∈ agentNames, element ∈ names)
    (named : ∀ path ∈ requestPaths workspace fileMessage fileList, path ∈ paths) :
    Owes steady names paths (NFileCommand.sendLoop workspace fileMessage agentNames)
      (answered ((fileSends steady.env steady.channel (requestPaths workspace fileMessage fileList) agentNames).map
        AgentFrame.pair) .done) := by
  obtain ⟨typed, selected⟩ := List.forall_mem_append.mp named
  induction agentNames with
  | nil => rfl
  | cons element rest ih =>
      obtain ⟨first, later⟩ := List.forall_mem_cons.mp listed
      rw [rounds_cons, requestPaths, round_append, send_round workspace fileMessage fileList present]
      exact send_files_owes steady names paths element _ _ first
        (send_files_owes steady names paths element _ _ first (ih later) _ selected) _ typed

theorem missing_list_owes [FileSystem] (steady : Steady Ch) (names paths : List JString) (workspace : Option JString)
    (fileMessage : FileMessage) (missing : fileMessage.fileList = none) (agentNames : List JString)
    (listed : ∀ element ∈ agentNames, element ∈ names) (named : ∀ path ∈ NFileCommand.typedFiles fileMessage, path ∈ paths) :
    Owes steady names paths (NFileCommand.sendLoop workspace fileMessage agentNames)
      (answered ((fileSends steady.env steady.channel (NFileCommand.typedFiles fileMessage) (agentNames.take 1)).map
        AgentFrame.pair) .done) := by
  cases agentNames with
  | nil => rfl
  | cons element rest =>
      have raises : Owes steady names paths (.raise .nullPointer) .done := rfl
      rw [List.take_succ_cons, List.take_zero, rounds_cons, NFileCommand.sendLoop, missing]
      exact send_files_owes steady names paths element _ _ (List.forall_mem_cons.mp listed).1 raises _ named

def FrameRequest.listens : FrameRequest → Bool
  | .nfile _ _ => true
  | _ => false

-- The request alone with the agent: its own thread, and for files the listeners.
def Steady.thread [FileSystem] (steady : Steady Ch) (request : FrameRequest) : Thread (Part × Bytes) :=
  if request.listens then answered ((steady.frames request).map AgentFrame.pair) .done
  else sequence ((steady.frames request).flatMap AgentFrame.writes)

theorem message_frames_writes (steady : Steady Ch) (msg : JString) (agentNames : List JString) :
    (operationSends steady.env steady.channel ⟨some msg, some agentNames⟩).flatMap AgentFrame.writes =
      messageWrites steady msg agentNames := by
  rw [operationSends, selections, messageWrites, List.map_map, List.flatMap_map]
  simp only [steady_target]
  apply List.flatMap_congr
  intro _ _
  rw [Function.comp_apply, AgentFrame.writes, AgentFrame.headerWrite, AgentFrame.bodyWrite, AgentFrame.parts,
    operation_header_frame]

theorem missing_frames (steady : Steady Ch) (message : Message) (missing : message.msg = none ∨ message.agent = none) :
    operationSends steady.env steady.channel message = [] := by
  rw [operationSends, selections]
  rcases missing with none | none
  · rw [none]
    rfl
  · rw [none]
    cases message.msg with
    | none => rfl
    | some msg => rfl

theorem operation_owes [FileSystem] (steady : Steady Ch) (message : Message) :
    Owes steady (WebRequest.frames (.operation message)).agents (WebRequest.frames (.operation message)).paths
      (OperationCommand.sendCommand message) (steady.thread (.operation message)) := by
  simp only [Steady.thread, FrameRequest.listens, Bool.false_eq_true, if_false, Steady.frames, FrameRequest.sends]
  by_cases missing : message.msg = none ∨ message.agent = none
  · rw [OperationCommand.send_command_missing message missing, missing_frames steady message missing]
    rfl
  · obtain ⟨hasText, hasNames⟩ := not_or.mp missing
    obtain ⟨msg, text⟩ := Option.ne_none_iff_exists'.mp hasText
    obtain ⟨agentNames, names⟩ := Option.ne_none_iff_exists'.mp hasNames
    obtain ⟨_, _⟩ := message
    simp only at text names
    subst text names
    rw [message_frames_writes]
    exact message_loop_owes steady _ _ msg agentNames fun _ member => member

theorem noperation_owes [FileSystem] (steady : Steady Ch) (message : Message) :
    Owes steady (WebRequest.frames (.noperation message)).agents (WebRequest.frames (.noperation message)).paths
      (NOperationCommand.sendCommand message) (steady.thread (.noperation message)) := by
  simp only [Steady.thread, FrameRequest.listens, Bool.false_eq_true, if_false, Steady.frames, FrameRequest.sends]
  cases NOperationCommand.send_command_cases Ch message with
  | loops msg agentNames text other names same =>
      obtain ⟨_, _⟩ := message
      simp only at text names
      subst text names
      rw [same, if_neg (by simpa using other), message_frames_writes]
      exact message_loop_owes steady _ _ msg agentNames fun _ member => member
  | nothing missing other same =>
      rw [same, if_neg other, missing_frames steady message missing]
      rfl
  | watches text same =>
      rw [same, if_pos text]
      rfl

theorem nfile_owes [FileSystem] (steady : Steady Ch) (conf : Option Configuration) (fileMessage : FileMessage) :
    Owes steady (WebRequest.frames (.nfile conf fileMessage)).agents (WebRequest.frames (.nfile conf fileMessage)).paths
      (NFileCommand.sendCommand conf fileMessage) (steady.thread (.nfile conf fileMessage)) := by
  simp only [Steady.thread, FrameRequest.listens, if_true, Steady.frames]
  cases conf with
  | none => rfl
  | some conf =>
      have same : (NFileCommand.sendCommand (some conf) fileMessage : Program Ch) =
          NFileCommand.sendLoop conf.fileDirectory fileMessage (fileMessage.agent.getD []) := by
        rw [NFileCommand.sendCommand]
        cases fileMessage.agent with
        | none => rfl
        | some agentNames => rfl
      rw [same]
      cases present : fileMessage.fileList with
      | none =>
          simp only [FrameRequest.sends, present]
          exact missing_list_owes steady _ _ conf.fileDirectory fileMessage present _ (fun _ member => member)
            fun path member => List.mem_append_left _ member
      | some fileList =>
          simp only [FrameRequest.sends, present]
          apply file_loop_owes steady _ _ conf.fileDirectory fileMessage fileList present _ fun _ member => member
          intro path member
          rwa [WebRequest.paths, present]

theorem request_owes [FileSystem] (steady : Steady Ch) (request : FrameRequest) :
    Owes steady (WebRequest.frames request).agents (WebRequest.frames request).paths request.program (steady.thread request) := by
  cases request with
  | operation message => exact operation_owes steady message
  | noperation message => exact noperation_owes steady message
  | nfile conf fileMessage => exact nfile_owes steady conf fileMessage

def isHeader (write : Part × Bytes) : Bool := write.1 = .header

-- Files: the headers come in the form's order, and a content only behind its header.
structure HeadersFirst (frames : List AgentFrame) (written : List (Part × Bytes)) : Prop where
  headers : written.filter isHeader <+: frames.map AgentFrame.headerWrite
  bodies : (written.filter fun write => !isHeader write).Subperm
    ((frames.take (written.filter isHeader).length).map AgentFrame.bodyWrite)

-- Messages: one frame after the other.
def InOrder (request : FrameRequest) (frames : List AgentFrame) (written : List (Part × Bytes)) : Prop :=
  if request.listens then HeadersFirst frames written else written <+: frames.flatMap AgentFrame.writes

theorem pairs_told (frames : List AgentFrame) : ∀ pair ∈ frames.map AgentFrame.pair, isHeader pair.1 = true ∧ isHeader pair.2 = false := by
  intro pair member
  obtain ⟨frame, _, rfl⟩ := List.mem_map.mp member
  exact ⟨rfl, rfl⟩

theorem trace_in_order [FileSystem] (steady : Steady Ch) (request : FrameRequest) (log : List (Part × Bytes))
    (rest : Multiset (Thread (Part × Bytes))) (trace : Trace {steady.thread request} log rest) :
    InOrder request (steady.frames request) log := by
  rw [Steady.thread] at trace
  rw [InOrder]
  split at trace
  · rename_i listens
    rw [if_pos listens]
    obtain ⟨sent, left, waiting, _, ⟨split, firsts, seconds⟩, _⟩ := trace_answered isHeader _ (pairs_told _) log rest trace
    obtain ⟨out, later, same, rfl, rfl⟩ := List.map_eq_append_iff.mp split
    refine ⟨?_, ?_⟩
    · rw [firsts, List.map_map, same, List.map_append]
      exact List.prefix_append _ _
    · have number : (log.filter isHeader).length = out.length := by rw [firsts, List.length_map, List.length_map]
      rw [number, same, List.take_left, ← Multiset.coe_le]
      rw [List.map_map] at seconds
      exact seconds ▸ Multiset.le_add_right _ waiting
  · rename_i silent
    rw [if_neg silent]
    obtain ⟨left, _, split, _⟩ := trace_sequence _ log rest trace
    exact ⟨left, split.symm⟩

theorem pairs_perm (frames : List AgentFrame) (log : List (Part × Bytes))
    (headers : log.filter isHeader = frames.map AgentFrame.headerWrite)
    (bodies : (log.filter fun write => !isHeader write).Perm (frames.map AgentFrame.bodyWrite)) :
    log.Perm (frames.flatMap AgentFrame.writes) := by
  have parts : (frames.flatMap AgentFrame.writes).Perm (frames.map AgentFrame.headerWrite ++ frames.map AgentFrame.bodyWrite) := by
    clear headers bodies
    induction frames with
    | nil => exact List.Perm.refl _
    | cons frame rest ih =>
        exact (((ih.cons frame.bodyWrite).trans List.perm_middle.symm).cons frame.headerWrite)
  refine (List.filter_append_perm isHeader log).symm.trans ?_
  rw [headers]
  exact (bodies.append_left _).trans parts.symm

theorem trace_whole [FileSystem] (steady : Steady Ch) (request : FrameRequest) (log : List (Part × Bytes))
    (rest : Multiset (Thread (Part × Bytes))) (trace : Trace {steady.thread request} log rest)
    (ended : ∀ thread ∈ rest, thread = .done) : log.Perm ((steady.frames request).flatMap AgentFrame.writes) := by
  rw [Steady.thread] at trace
  split at trace
  · obtain ⟨sent, left, waiting, _, ⟨split, firsts, seconds⟩, rfl⟩ := trace_answered isHeader _ (pairs_told _) log rest trace
    obtain rfl := answered_done left (ended _ (Multiset.mem_cons_self _ _))
    have none : waiting = 0 := by
      refine Multiset.eq_zero_of_forall_notMem fun item member => ?_
      have ending := ended (single item)
        (Multiset.mem_cons_of_mem (Multiset.mem_add.mpr (.inl (Multiset.mem_map_of_mem single member))))
      cases ending
    rw [List.append_nil] at split
    rw [none, add_zero, ← split, List.map_map] at seconds
    rw [← split, List.map_map] at firsts
    exact pairs_perm _ log firsts (Multiset.coe_eq_coe.mp seconds)
  · obtain ⟨left, _, split, rfl⟩ := trace_sequence _ log rest trace
    obtain rfl := sequence_done left (ended _ (Multiset.mem_cons_self _ _))
    rw [split, List.append_nil]

end Nenes
