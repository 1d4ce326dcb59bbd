import Mathlib.Data.List.TakeWhile
import Nenes.FileCommand
import Nenes.OperationFrames
import Nenes.RequestThread

set_option autoImplicit false

namespace Nenes

open ByteBuf Runs

variable {Ch : Type}

namespace Program

def WritesOnly (env : Env Ch) (permitted : Ch → Prop) : Program Ch → Prop
  | .done => True
  | .raise _ => True
  | .get element next => WritesOnly env permitted (next (env.get element))
  | .isActive ch next => WritesOnly env permitted (next (env.isActive ch))
  | .read path next => WritesOnly env permitted (next (env.read path))
  | .publishEvent _ next => WritesOnly env permitted next
  | .writeAndFlush ch _ _ listener next => permitted ch ∧ WritesOnly env permitted listener ∧ WritesOnly env permitted next

theorem writes_only_next (env : Env Ch) (permitted : Ch → Prop) (program : Program Ch)
    (only : program.WritesOnly env permitted) :
    (program.next env).WritesOnly env permitted ∧ ∀ listener ∈ program.listeners, listener.WritesOnly env permitted := by
  cases program with
  | writeAndFlush ch part buf listener next =>
      refine ⟨only.2.2, fun other member => ?_⟩
      rw [List.mem_singleton.mp member]
      exact only.2.1
  | _ => exact ⟨only, by simp [listeners]⟩

theorem writes_only_observed (env : Env Ch) (permitted : Ch → Prop) (program : Program Ch) (task : Nat)
    (only : program.WritesOnly env permitted) (request : Nat) (ch : Ch) (part : Part) (buf : Bytes)
    (queued : .queued request ch part buf ∈ program.observed env task) : permitted ch := by
  cases program with
  | writeAndFlush other _ _ listener next =>
      obtain ⟨_, same, _⟩ := Observation.queued.inj (List.mem_singleton.mp queued)
      rw [same]
      exact only.1
  | _ => simp [observed] at queued

theorem writes_only_skips (env : Env Ch) (permitted : Ch → Prop) (program last : Program Ch) (skips : Skips env program last)
    (only : last.WritesOnly env permitted) : program.WritesOnly env permitted := by
  induction skips with
  | here program => exact only
  | get element next last rest ih => exact ih only
  | isActive other next last rest ih => exact ih only
  | read path next last rest ih => exact ih only

end Program

namespace Pool

structure WritesOnly (env : Env Ch) (permitted : Ch → Prop) (pool : Pool Ch) : Prop where
  tasks : ∀ task ∈ pool.tasks, task.program.WritesOnly env permitted
  log : ∀ request ch part buf, .queued request ch part buf ∈ pool.log → permitted ch

theorem writes_only_proceed (env : Env Ch) (permitted : Ch → Prop) (pool : Pool Ch) (i : Nat)
    (only : pool.WritesOnly env permitted) : (pool.proceed env i).WritesOnly env permitted where
  tasks := by
    apply each_task_proceed env pool i _ (fun task => task.program.WritesOnly env permitted) only.tasks
    · exact fun task same => same
    · exact fun task _ now => Program.writes_only_next env permitted task.program now
  log := by
    intro request ch part buf queued
    cases proceed_cases env pool i with
    | idle same =>
        rw [same] at queued
        exact only.log request ch part buf queued
    | taken left task right _ before _ log =>
        rw [log] at queued
        rcases List.mem_append.mp queued with old | new
        · exact only.log request ch part buf old
        · exact task.program.writes_only_observed env permitted task.request (only.tasks task (by simp [before])) _ _ _ _ new

theorem writes_only_run (env : Env Ch) (permitted : Ch → Prop) (program : Program Ch)
    (only : program.WritesOnly env permitted) (schedule : List Nat) :
    (run (proceed env) (start [program]) schedule).WritesOnly env permitted := by
  apply invariant_run (proceed env) _ (writes_only_proceed env permitted)
  refine ⟨fun task member => ?_, by simp [start]⟩
  rw [List.mem_singleton.mp member]
  exact only

end Pool

namespace FileCommand

-- A file that exists has a length, also where it cannot be opened for reading.
structure ExistingFile (env : Env Ch) (fileName : JString) where
  length : Nat
  measured : ∀ content, env.read fileName = some content → content.length = length

def headerFor [FileSystem] (fileName : JString) (length : Nat) (ch : Ch) : Ch × Part × Bytes :=
  (ch, .header, initializeProtocol fileName length)

-- The channels SendFile hands its text about a file that cannot be opened to.
def errorTexts (env : Env Ch) (msg : JString) : List JString → List Ch
  | [] => []
  | element :: rest =>
      match env.get element, env.read msg with
      | none, _ => []
      | some ch, none => ch :: errorTexts env msg rest
      | some _, some _ => errorTexts env msg rest

-- The listeners may run at any time, so active speaks of every schedule.
structure IsolatesStaleAgents [FileSystem] (env : Env Ch) (secure : Ch → Bool) (fileName : JString)
    (file : ExistingFile env fileName) (agent fileList : Option (List JString)) : Prop where
  returns : (sendCommand secure ⟨some fileName, agent, fileList⟩).raised env = none
  queues : (sendCommand secure ⟨some fileName, agent, fileList⟩).queued env =
    (agent.getD []).filterMap fun element => (target env element).map (headerFor fileName file.length)
  active : ∀ schedule request ch part buf,
    .queued request ch part buf ∈
        (run (Pool.proceed env) (Pool.start [sendCommand secure ⟨some fileName, agent, fileList⟩]) schedule).log →
      env.isActive ch = true
  errors : ∀ ch ∈ errorTexts env fileName (agent.getD []), env.isActive ch = true

theorem send_file_known [FileSystem] (env : Env Ch) (secure : Ch → Bool) (fileName element : JString) (content : Bytes)
    (ch : Ch) (next : Program Ch) (readable : env.read fileName = some content) (known : env.get element = some ch) :
    Skips env (sendFile secure fileName element next)
      (.writeAndFlush ch .header (initializeProtocol fileName content.length) (operationComplete (secure ch) ch fileName)
        next) := by
  apply Skips.get
  rw [known]
  apply Skips.read
  rw [readable]
  apply Skips.read
  rw [readable]
  exact .here _

theorem send_file_refused [FileSystem] (env : Env Ch) (secure : Ch → Bool) (fileName element : JString) (ch : Ch)
    (next : Program Ch) (refused : env.read fileName = none) (known : env.get element = some ch) :
    Skips env (sendFile secure fileName element next) next := by
  apply Skips.get
  rw [known]
  apply Skips.read
  rw [refused]
  exact .here _

theorem send_command_loops [FileSystem] (secure : Ch → Bool) (fileMessage : FileMessage) :
    sendCommand secure fileMessage = sendLoop secure fileMessage.fileName (fileMessage.agent.getD []) := by
  rw [sendCommand]
  cases fileMessage.agent with
  | none => rfl
  | some agentNames => rfl

theorem send_loop_raised [FileSystem] (env : Env Ch) (secure : Ch → Bool) (fileName : JString) (agentNames : List JString) :
    (sendLoop secure (some fileName) agentNames).raised env = none ↔ ∀ element ∈ agentNames, env.get element ≠ none := by
  induction agentNames with
  | nil => simp [sendLoop, Program.raised]
  | cons element rest ih =>
      rw [sendLoop, List.forall_mem_cons, ← ih]
      cases known : env.get element with
      | none => simp [sendFile, Program.raised, known]
      | some ch =>
          cases opened : env.read fileName with
          | none =>
              rw [skips_raised env _ _ (send_file_refused env secure fileName element ch _ opened known)]
              simp
          | some content =>
              rw [skips_raised env _ _ (send_file_known env secure fileName element content ch _ opened known)]
              simp [Program.raised]

-- The agents before the first unknown one are served, and active or not.
theorem send_loop_queued [FileSystem] (env : Env Ch) (secure : Ch → Bool) (fileName : JString) (content : Bytes)
    (readable : env.read fileName = some content) (agentNames : List JString) :
    (sendLoop secure (some fileName) agentNames).queued env =
      (agentNames.takeWhile fun element => (env.get element).isSome).filterMap fun element =>
        (env.get element).map (headerFor fileName content.length) := by
  induction agentNames with
  | nil => rfl
  | cons element rest ih =>
      rw [sendLoop, List.takeWhile_cons]
      cases known : env.get element with
      | none => simp [sendFile, Program.queued, known]
      | some ch =>
          rw [skips_queued env _ _ (send_file_known env secure fileName element content ch _ readable known)]
          simp [Program.queued, ih, known, headerFor]

theorem refused_file_queued [FileSystem] (env : Env Ch) (secure : Ch → Bool) (fileName : JString)
    (refused : env.read fileName = none)
    (agentNames : List JString) : (sendLoop secure (some fileName) agentNames).queued env = [] := by
  induction agentNames with
  | nil => rfl
  | cons element rest ih =>
      rw [sendLoop]
      cases known : env.get element with
      | none => simp [sendFile, Program.queued, known]
      | some ch => rw [skips_queued env _ _ (send_file_refused env secure fileName element ch _ refused known), ih]

theorem refused_file_errors (env : Env Ch) (fileName : JString) (refused : env.read fileName = none) (agentNames : List JString)
    (known : ∀ element ∈ agentNames, env.get element ≠ none) (element : JString) (member : element ∈ agentNames) (ch : Ch)
    (registered : env.get element = some ch) : ch ∈ errorTexts env fileName agentNames := by
  induction agentNames with
  | nil => cases member
  | cons first rest ih =>
      rw [List.forall_mem_cons] at known
      obtain ⟨other, found⟩ := Option.ne_none_iff_exists'.mp known.1
      simp only [errorTexts, found, refused]
      rcases List.mem_cons.mp member with rfl | later
      · exact List.mem_cons.mpr (.inl (Option.some.inj (registered.symm.trans found)))
      · exact List.mem_cons_of_mem other (ih known.2 later)

theorem opened_file_errors (env : Env Ch) (fileName : JString) (opened : env.read fileName ≠ none) (agentNames : List JString) :
    errorTexts env fileName agentNames = [] := by
  obtain ⟨content, readable⟩ := Option.ne_none_iff_exists'.mp opened
  induction agentNames with
  | nil => rfl
  | cons element rest ih => cases known : env.get element <;> simp [errorTexts, known, readable, ih]

theorem operation_complete_writes (env : Env Ch) (permitted : Ch → Prop) (secure : Bool) (ch : Ch) (msg : JString)
    (open_ : permitted ch) : (operationComplete secure ch msg).WritesOnly env permitted := by
  rw [operationComplete, Program.WritesOnly]
  cases env.read msg with
  | none => trivial
  | some content =>
      cases secure with
      | true => trivial
      | false => exact ⟨open_, trivial, trivial⟩

theorem send_loop_writes [FileSystem] (env : Env Ch) (permitted : Ch → Prop) (secure : Ch → Bool) (fileName : JString)
    (content : Bytes) (readable : env.read fileName = some content) (agentNames : List JString)
    (listed : ∀ element ∈ agentNames, ∀ ch, env.get element = some ch → permitted ch) :
    (sendLoop secure (some fileName) agentNames).WritesOnly env permitted := by
  induction agentNames with
  | nil => trivial
  | cons element rest ih =>
      rw [List.forall_mem_cons] at listed
      rw [sendLoop]
      cases known : env.get element with
      | none => simp [sendFile, Program.WritesOnly, known]
      | some ch =>
          apply Program.writes_only_skips env permitted _ _
            (send_file_known env secure fileName element content ch _ readable known)
          exact ⟨listed.1 ch known, operation_complete_writes env permitted _ ch fileName (listed.1 ch known), ih listed.2⟩

theorem known_agents_queued [FileSystem] (env : Env Ch) (secure : Ch → Bool) (fileName : JString) (content : Bytes)
    (readable : env.read fileName = some content) (agentNames : List JString)
    (known : ∀ element ∈ agentNames, env.get element ≠ none) :
    (sendLoop secure (some fileName) agentNames).queued env =
      agentNames.filterMap fun element => (env.get element).map (headerFor fileName content.length) := by
  have whole : agentNames.takeWhile (fun element => (env.get element).isSome) = agentNames :=
    List.takeWhile_eq_self_iff.mpr fun element member => Option.isSome_iff_ne_none.mpr (known element member)
  rw [send_loop_queued env secure fileName content readable, whole]

theorem reached_agent (env : Env Ch) (element : JString) (ch : Ch) :
    target env element = some ch ↔ env.get element = some ch ∧ env.isActive ch = true := Option.filter_eq_some_iff

theorem isolated_agents_known [FileSystem] (env : Env Ch) (secure : Ch → Bool) (fileName : JString)
    (file : ExistingFile env fileName)
    (agent fileList : Option (List JString)) (isolates : IsolatesStaleAgents env secure fileName file agent fileList) :
    ∀ element ∈ agent.getD [], env.get element ≠ none := by
  have returns := isolates.returns
  rw [send_command_loops secure ⟨some fileName, agent, fileList⟩] at returns
  exact (send_loop_raised env secure fileName (agent.getD [])).mp returns

-- An active agent is due a header that is never queued, and the text about the
-- file goes to one that is not active.
theorem isolated_file_opened [FileSystem] (env : Env Ch) (secure : Ch → Bool) (fileName : JString)
    (file : ExistingFile env fileName)
    (agent fileList : Option (List JString)) (isolates : IsolatesStaleAgents env secure fileName file agent fileList)
    (element : JString) (member : element ∈ agent.getD []) : env.read fileName ≠ none := by
  intro refused
  have known := isolated_agents_known env secure fileName file agent fileList isolates
  obtain ⟨ch, registered⟩ := Option.ne_none_iff_exists'.mp (known element member)
  have active := isolates.errors ch (refused_file_errors env fileName refused _ known element member ch registered)
  have queues := isolates.queues
  rw [send_command_loops secure ⟨some fileName, agent, fileList⟩, refused_file_queued env secure fileName refused] at queues
  have header := List.filterMap_eq_nil_iff.mp queues.symm element member
  rw [(reached_agent env element ch).mpr ⟨registered, active⟩] at header
  cases header

theorem isolated_agents_reached [FileSystem] (env : Env Ch) (secure : Ch → Bool) (fileName : JString)
    (file : ExistingFile env fileName)
    (agent fileList : Option (List JString)) (isolates : IsolatesStaleAgents env secure fileName file agent fileList) :
    ∀ element ∈ agent.getD [], target env element ≠ none := by
  intro element member absent
  have known := isolated_agents_known env secure fileName file agent fileList isolates
  obtain ⟨ch, registered⟩ := Option.ne_none_iff_exists'.mp (known element member)
  obtain ⟨content, readable⟩ := Option.ne_none_iff_exists'.mp
    (isolated_file_opened env secure fileName file agent fileList isolates element member)
  have queues := isolates.queues
  rw [send_command_loops secure ⟨some fileName, agent, fileList⟩,
    known_agents_queued env secure fileName content readable _ known] at queues
  -- The agent's channel got a header, so it is the channel of an active agent.
  have header : headerFor fileName content.length ch ∈
      (agent.getD []).filterMap fun element => (target env element).map (headerFor fileName file.length) := by
    rw [← queues]
    exact List.mem_filterMap.mpr ⟨element, member, by rw [registered, Option.map_some]⟩
  obtain ⟨other, _, served⟩ := List.mem_filterMap.mp header
  obtain ⟨active, found, same⟩ := Option.map_eq_some_iff.mp served
  obtain ⟨rfl, _⟩ := Prod.mk.inj same
  have reached := (reached_agent env element active).mpr ⟨registered, ((reached_agent env other active).mp found).2⟩
  rw [absent] at reached
  cases reached

theorem reached_agents_isolated [FileSystem] (env : Env Ch) (secure : Ch → Bool) (fileName : JString)
    (file : ExistingFile env fileName)
    (content : Bytes) (readable : env.read fileName = some content) (agent fileList : Option (List JString))
    (reached : ∀ element ∈ agent.getD [], target env element ≠ none) :
    IsolatesStaleAgents env secure fileName file agent fileList := by
  have loops := send_command_loops secure ⟨some fileName, agent, fileList⟩
  have active : ∀ element ∈ agent.getD [], ∃ ch, env.get element = some ch ∧ env.isActive ch = true := by
    intro element member
    obtain ⟨ch, found⟩ := Option.ne_none_iff_exists'.mp (reached element member)
    exact ⟨ch, (reached_agent env element ch).mp found⟩
  have known : ∀ element ∈ agent.getD [], env.get element ≠ none := by
    intro element member
    obtain ⟨ch, registered, _⟩ := active element member
    rw [registered]
    exact Option.some_ne_none ch
  have same : ∀ element ∈ agent.getD [], env.get element = target env element := by
    intro element member
    obtain ⟨ch, found⟩ := active element member
    rw [found.1, (reached_agent env element ch).mpr found]
  constructor
  · rw [loops]
    exact (send_loop_raised env secure fileName _).mpr known
  · rw [loops, known_agents_queued env secure fileName content readable _ known, file.measured content readable]
    exact List.filterMap_congr fun element member => by rw [same element member]
  · intro schedule
    apply (Pool.writes_only_run env (fun ch => env.isActive ch = true) _ _ schedule).log
    rw [loops]
    apply send_loop_writes env _ secure fileName content readable
    intro element member ch registered
    obtain ⟨other, found, open_⟩ := active element member
    obtain rfl := Option.some.inj (registered.symm.trans found)
    exact open_
  · rw [opened_file_errors env fileName (by simp [readable])]
    exact List.forall_mem_nil _

theorem no_agents_isolated [FileSystem] (env : Env Ch) (secure : Ch → Bool) (fileName : JString)
    (file : ExistingFile env fileName) (agent fileList : Option (List JString)) (unlisted : agent.getD [] = []) :
    IsolatesStaleAgents env secure fileName file agent fileList := by
  have loops := send_command_loops secure ⟨some fileName, agent, fileList⟩
  rw [unlisted, sendLoop] at loops
  constructor
  · rw [loops, Program.raised]
  · rw [loops, unlisted]
    rfl
  · intro schedule
    apply (Pool.writes_only_run env (fun ch => env.isActive ch = true) _ _ schedule).log
    rw [loops]
    trivial
  · rw [unlisted]
    exact List.forall_mem_nil _

theorem isolates_stale_agents [FileSystem] (env : Env Ch) (secure : Ch → Bool) (fileName : JString)
    (file : ExistingFile env fileName) (agent fileList : Option (List JString)) :
    IsolatesStaleAgents env secure fileName file agent fileList ↔
      ∀ element ∈ agent.getD [], target env element ≠ none ∧ env.read fileName ≠ none := by
  refine ⟨fun isolates element member => ⟨isolated_agents_reached env secure fileName file agent fileList isolates element member,
    isolated_file_opened env secure fileName file agent fileList isolates element member⟩, fun reached => ?_⟩
  cases listed : agent.getD [] with
  | nil => exact no_agents_isolated env secure fileName file agent fileList listed
  | cons first rest =>
      obtain ⟨content, readable⟩ := Option.ne_none_iff_exists'.mp (reached first (by simp [listed])).2
      exact reached_agents_isolated env secure fileName file content readable agent fileList
        fun element member => (reached element member).1

def sampleFile : ExistingFile sampleEnv (ofString "/w/f") := ⟨1, by decide +kernel⟩

open Unix

theorem unknown_agent_ends_request :
    ¬ IsolatesStaleAgents sampleEnv (fun _ => true) (ofString "/w/f") sampleFile
      (some [ofString "b(1)", ofString "a(d53f5b8e)"]) none := by
  intro isolates
  have returns := isolates.returns
  revert returns
  decide +kernel

end FileCommand

end Nenes
