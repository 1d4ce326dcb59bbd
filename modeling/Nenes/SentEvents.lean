import Mathlib.Data.Multiset.AddSub
import Mathlib.Tactic.Abel
import Nenes.AccountedWrites

set_option autoImplicit false

namespace Nenes

open ByteBuf OperationServerHandler Runs EventLog

variable {Ch : Type}

-- What a thread goes by: whom a name has been found to stand for, and what has
-- been read from a file.
structure Knowledge (Ch : Type) where
  stands : JString → Ch → Prop
  holds : JString → Bytes → Prop

namespace Knowledge

structure Le (knowledge more : Knowledge Ch) : Prop where
  stands : ∀ element c, knowledge.stands element c → more.stands element c
  holds : ∀ path content, knowledge.holds path content → more.holds path content

def finding (knowledge : Knowledge Ch) (element : JString) (c : Ch) : Knowledge Ch :=
  { knowledge with stands := fun other d => knowledge.stands other d ∨ (other = element ∧ d = c) }

def reading (knowledge : Knowledge Ch) (path : JString) (content : Bytes) : Knowledge Ch :=
  { knowledge with holds := fun other buf => knowledge.holds other buf ∨ (other = path ∧ buf = content) }

-- The event tells of these bytes on this channel: a file that is named, written to
-- an agent that is listed.
def Reports [FileSystem] (knowledge : Knowledge Ch) (request : WebRequest) (c : Ch) (buf : Bytes)
    (data : MessageEventData) : Prop :=
  ∃ element ∈ request.agents, ∃ path ∈ request.paths,
    data = ⟨.fileSent, element, getName path⟩ ∧ knowledge.stands element c ∧ knowledge.holds path buf

theorem le_refl (knowledge : Knowledge Ch) : knowledge.Le knowledge := ⟨fun _ _ known => known, fun _ _ known => known⟩

theorem le_trans (knowledge more most : Knowledge Ch) (le : knowledge.Le more) (further : more.Le most) : knowledge.Le most :=
  ⟨fun element c known => further.stands element c (le.stands element c known),
    fun path content known => further.holds path content (le.holds path content known)⟩

theorem finding_more (knowledge : Knowledge Ch) (element : JString) (c : Ch) : knowledge.Le (knowledge.finding element c) :=
  ⟨fun _ _ known => .inl known, fun _ _ known => known⟩

theorem reading_more (knowledge : Knowledge Ch) (path : JString) (content : Bytes) :
    knowledge.Le (knowledge.reading path content) :=
  ⟨fun _ _ known => known, fun _ _ known => .inl known⟩

theorem finding_le (knowledge more : Knowledge Ch) (element : JString) (c : Ch) (le : knowledge.Le more)
    (now : more.stands element c) : (knowledge.finding element c).Le more :=
  ⟨fun other d known => known.elim (le.stands other d) fun same => same.1 ▸ same.2 ▸ now, le.holds⟩

theorem reading_le (knowledge more : Knowledge Ch) (path : JString) (content : Bytes) (le : knowledge.Le more)
    (now : more.holds path content) : (knowledge.reading path content).Le more :=
  ⟨le.stands, fun other buf known => known.elim (le.holds other buf) fun same => same.1 ▸ same.2 ▸ now⟩

theorem reports_more [FileSystem] (knowledge more : Knowledge Ch) (request : WebRequest) (c : Ch) (buf : Bytes)
    (data : MessageEventData)
    (le : knowledge.Le more) (reports : knowledge.Reports request c buf data) : more.Reports request c buf data := by
  obtain ⟨element, listed, path, named, same, stands, holds⟩ := reports
  exact ⟨element, listed, path, named, same, le.stands element c stands, le.holds path buf holds⟩

end Knowledge

def WebRequest.announces : WebRequest → Bool
  | .frames (.nfile _ _) => true
  | _ => false

-- The events that are due for a write: one for the content of an /nfile request.
def Due [FileSystem] (request : WebRequest) (knowledge : Knowledge Ch) (c : Ch) (part : Part) (buf : Bytes)
    (due : List MessageEventData) : Prop :=
  if request.announces ∧ part = .body then ∃ data, due = [data] ∧ knowledge.Reports request c buf data else due = []

theorem due_nothing [FileSystem] (request : WebRequest) (knowledge : Knowledge Ch) (c : Ch) (part : Part) (buf : Bytes)
    (silent : request.announces = false ∨ part = .header) : Due request knowledge c part buf [] := by
  rw [Due, if_neg]
  rintro ⟨announces, rfl⟩
  simp [announces] at silent

-- The program itself publishes these events, whatever the answers to its calls,
-- and each listener those that are due for its write.
def Pays [FileSystem] (request : WebRequest) : Program Ch → Knowledge Ch → List MessageEventData → Prop
  | .done, _, owed => owed = []
  | .raise _, _, owed => owed = []
  | .get element next, knowledge, owed =>
      Pays request (next none) knowledge owed ∧ ∀ c, Pays request (next (some c)) (knowledge.finding element c) owed
  | .isActive _ next, knowledge, owed => ∀ answer, Pays request (next answer) knowledge owed
  | .read path next, knowledge, owed =>
      Pays request (next none) knowledge owed ∧
        ∀ content, Pays request (next (some content)) (knowledge.reading path content) owed
  | .publishEvent data next, knowledge, owed => ∃ rest, owed = data :: rest ∧ Pays request next knowledge rest
  | .writeAndFlush c part buf listener next, knowledge, owed =>
      (∃ due, Due request knowledge c part buf due ∧ Pays request listener knowledge due) ∧ Pays request next knowledge owed

def owes : Program Ch → List MessageEventData
  | .done => []
  | .raise _ => []
  | .get _ next => owes (next none)
  | .isActive _ next => owes (next false)
  | .read _ next => owes (next none)
  | .publishEvent data next => data :: owes next
  | .writeAndFlush _ _ _ _ next => owes next

theorem pays_owes [FileSystem] (request : WebRequest) (program : Program Ch) (knowledge : Knowledge Ch)
    (owed : List MessageEventData) (pays : Pays request program knowledge owed) : owes program = owed := by
  induction program generalizing knowledge owed with
  | done => exact Eq.symm pays
  | raise exception => exact Eq.symm pays
  | get element next ih => exact ih none knowledge owed pays.1
  | isActive c next ih => exact ih false knowledge owed (pays false)
  | read path next ih => exact ih none knowledge owed pays.1
  | publishEvent data next ih =>
      obtain ⟨rest, rfl, later⟩ := pays
      exact congrArg (data :: ·) (ih knowledge rest later)
  | writeAndFlush c part buf listener next ihListener ihNext => exact ihNext knowledge owed pays.2

theorem due_more [FileSystem] (request : WebRequest) (knowledge more : Knowledge Ch) (le : knowledge.Le more) (c : Ch)
    (part : Part) (buf : Bytes)
    (due : List MessageEventData) (owed : Due request knowledge c part buf due) : Due request more c part buf due := by
  rw [Due] at owed ⊢
  by_cases body : request.announces = true ∧ part = .body
  · rw [if_pos body] at owed ⊢
    obtain ⟨data, one, reports⟩ := owed
    exact ⟨data, one, Knowledge.reports_more knowledge more request c buf data le reports⟩
  · rwa [if_neg body] at owed ⊢

theorem pays_more [FileSystem] (request : WebRequest) (program : Program Ch) (knowledge more : Knowledge Ch)
    (le : knowledge.Le more)
    (owed : List MessageEventData) (pays : Pays request program knowledge owed) : Pays request program more owed := by
  induction program generalizing knowledge more owed with
  | done => exact pays
  | raise exception => exact pays
  | get element next ih =>
      refine ⟨ih none knowledge more le owed pays.1, fun c => ih (some c) _ _ ?_ owed (pays.2 c)⟩
      exact Knowledge.finding_le _ _ element c (Knowledge.le_trans _ _ _ le (Knowledge.finding_more more element c)) (.inr ⟨rfl, rfl⟩)
  | isActive c next ih => exact fun answer => ih answer knowledge more le owed (pays answer)
  | read path next ih =>
      refine ⟨ih none knowledge more le owed pays.1, fun content => ih (some content) _ _ ?_ owed (pays.2 content)⟩
      exact Knowledge.reading_le _ _ path content (Knowledge.le_trans _ _ _ le (Knowledge.reading_more more path content))
        (.inr ⟨rfl, rfl⟩)
  | publishEvent data next ih =>
      obtain ⟨rest, same, later⟩ := pays
      exact ⟨rest, same, ih knowledge more le rest later⟩
  | writeAndFlush c part buf listener next ihListener ihNext =>
      obtain ⟨⟨due, for_, listens⟩, later⟩ := pays
      exact ⟨⟨due, due_more request _ _ le c part buf due for_, ihListener knowledge more le due listens⟩,
        ihNext knowledge more le owed later⟩

theorem message_loop_pays [FileSystem] (request : WebRequest) (silent : request.announces = false) (knowledge : Knowledge Ch)
    (msg : JString) (agentNames : List JString) : Pays request (NOperationCommand.sendLoop msg agentNames) knowledge [] := by
  have nothing : ∀ (more : Knowledge Ch) (c : Ch) (part : Part) (buf : Bytes),
      ∃ due, Due request more c part buf due ∧ Pays request .done more due := fun more c part buf =>
    ⟨[], due_nothing request more c part buf (.inl silent), rfl⟩
  induction agentNames generalizing knowledge with
  | nil => rfl
  | cons element rest ih =>
      refine ⟨ih knowledge, fun c answer => ?_⟩
      cases answer with
      | false => exact ih _
      | true => exact ⟨nothing _ _ _ _, nothing _ _ _ _, ih _⟩

theorem file_page_pays [FileSystem] (request : WebRequest) (silent : request.announces = false) (secure : Ch → Bool)
    (fileName : Option JString) (knowledge : Knowledge Ch) (agentNames : List JString) :
    Pays request (FileCommand.sendLoop secure fileName agentNames) knowledge [] := by
  have nothing : ∀ (more : Knowledge Ch) (c : Ch) (part : Part) (buf : Bytes), Due request more c part buf [] :=
    fun more c part buf => due_nothing request more c part buf (.inl silent)
  induction agentNames generalizing knowledge with
  | nil => rfl
  | cons element rest ih =>
      cases fileName with
      | none => exact ih knowledge
      | some msg =>
          have listens : ∀ (c : Ch) (more : Knowledge Ch),
              Pays request (FileCommand.operationComplete (secure c) c msg) more [] := by
            intro c more
            refine ⟨rfl, fun content => ?_⟩
            cases secure c with
            | true => rfl
            | false => exact ⟨⟨[], nothing _ _ _ _, rfl⟩, rfl⟩
          refine ⟨rfl, fun c => ⟨ih _, fun _ => ⟨⟨⟨[], nothing _ _ _ _, listens c _⟩, ih _⟩, fun _ => ?_⟩⟩⟩
          exact ⟨⟨[], nothing _ _ _ _, listens c _⟩, ih _⟩

section Files

variable (request : WebRequest) (announces : request.announces = true)
include announces

theorem operation_complete_pays [FileSystem] (knowledge : Knowledge Ch) (c : Ch) (path element : JString)
    (listed : element ∈ request.agents) (named : path ∈ request.paths) (stands : knowledge.stands element c) :
    Pays request (NFileCommand.operationComplete c path element) knowledge [] := by
  refine ⟨rfl, fun content => ⟨⟨[⟨.fileSent, element, getName path⟩], ?_, [], rfl, rfl⟩, rfl⟩⟩
  rw [Due, if_pos ⟨announces, rfl⟩]
  exact ⟨_, rfl, element, listed, path, named, rfl, stands, .inr ⟨rfl, rfl⟩⟩

theorem send_files_pays [FileSystem] (knowledge : Knowledge Ch) (element : JString) (next : Program Ch) (sent : List JString)
    (listed : element ∈ request.agents) (named : ∀ path ∈ sent, path ∈ request.paths)
    (goesOn : ∀ more : Knowledge Ch, Pays request next more []) :
    Pays request (NFileCommand.sendFiles element next sent) knowledge [] := by
  induction sent generalizing knowledge with
  | nil => exact goesOn knowledge
  | cons path rest ih =>
      obtain ⟨here, later⟩ := List.forall_mem_cons.mp named
      have onward := fun more => ih more later
      refine ⟨onward _, fun c answer => ?_⟩
      cases answer with
      | false => exact onward _
      | true =>
          have listens : ∀ (more : Knowledge Ch) (buf : Bytes), more.stands element c →
              ∃ due, Due request more c .header buf due ∧ Pays request (NFileCommand.operationComplete c path element) more due :=
            fun more buf stands =>
              ⟨[], due_nothing request more c _ buf (.inr rfl), operation_complete_pays request announces more c path element listed here stands⟩
          exact ⟨onward _, fun content => ⟨⟨listens _ _ (.inr ⟨rfl, rfl⟩), onward _⟩,
            fun again => ⟨listens _ _ (.inr ⟨rfl, rfl⟩), onward _⟩⟩⟩

theorem file_loop_pays [FileSystem] (workspace : Option JString) (fileMessage : FileMessage) (knowledge : Knowledge Ch)
    (agentNames : List JString) (listed : ∀ element ∈ agentNames, element ∈ request.agents)
    (typed : ∀ path ∈ NFileCommand.typedFiles fileMessage, path ∈ request.paths)
    (selected : ∀ path ∈ (fileMessage.fileList.getD []).map (NFileCommand.selectedPath workspace), path ∈ request.paths) :
    Pays request (NFileCommand.sendLoop workspace fileMessage agentNames) knowledge [] := by
  induction agentNames generalizing knowledge with
  | nil => rfl
  | cons element rest ih =>
      obtain ⟨first, later⟩ := List.forall_mem_cons.mp listed
      apply send_files_pays request announces knowledge element _ _ first typed
      intro more
      cases files : fileMessage.fileList with
      | none => rfl
      | some fileList =>
          rw [files] at selected
          exact send_files_pays request announces more element _ _ first selected fun most => ih most later

end Files

theorem request_pays [FileSystem] (secure : Ch → Bool) (request : WebRequest) (knowledge : Knowledge Ch) :
    Pays request (request.program secure) knowledge [] := by
  cases request with
  | frames request =>
      cases request with
      | operation message =>
          rw [WebRequest.program, FrameRequest.program, OperationCommand.sendCommand]
          split
          · exact message_loop_pays _ rfl _ _ _
          · rfl
      | noperation message =>
          rw [WebRequest.program, FrameRequest.program]
          cases NOperationCommand.send_command_cases Ch message with
          | loops msg agentNames _ _ _ same =>
              rw [same]
              exact message_loop_pays _ rfl _ _ _
          | nothing _ _ same =>
              rw [same]
              rfl
          | watches _ same =>
              rw [same]
              rfl
      | nfile conf fileMessage =>
          cases conf with
          | none => rfl
          | some conf =>
              rw [WebRequest.program, FrameRequest.program, NFileCommand.sendCommand]
              cases names : fileMessage.agent with
              | none => rfl
              | some agentNames =>
                  apply file_loop_pays _ rfl
                  · simp [WebRequest.agents, names]
                  · exact fun path member => List.mem_append_left _ member
                  · exact fun path member => List.mem_append_right _ member
  | file fileMessage =>
      rw [WebRequest.program, FileCommand.sendCommand]
      cases fileMessage.agent with
      | none => rfl
      | some agentNames => exact file_page_pays _ rfl secure fileMessage.fileName knowledge agentNames

def Observation.event : Observation Ch → Option MessageEventData
  | .published data => some data
  | _ => none

-- The contents that /nfile requests have written, each with its request and channel.
def fileBody (requests : List WebRequest) : Observation Ch → Option (Nat × Ch × Bytes)
  | .queued n c .body buf => if (requests[n]?).any WebRequest.announces then some (n, c, buf) else none
  | _ => none

def Announces [FileSystem] (knowledge : Knowledge Ch) (requests : List WebRequest) (body : Nat × Ch × Bytes)
    (data : MessageEventData) : Prop :=
  ∃ request, requests[body.1]? = some request ∧ knowledge.Reports request body.2.1 body.2.2 data

def learned (id : Ch → JString) (disks : List (JString → Option Bytes)) : Knowledge Ch where
  stands element c := ∃ data, element = nameOf data (id c)
  holds path content := ∃ files ∈ disks, files path = some content

theorem learned_more (id : Ch → JString) (disks others : List (JString → Option Bytes)) :
    (learned id disks).Le (learned id (disks ++ others)) where
  stands _ _ known := known
  holds _ _ known := known.imp fun _ read => ⟨List.mem_append_left others read.1, read.2⟩

-- One call of a task: what it publishes and what it comes to owe.
structure Settles [FileSystem] (request : WebRequest) (n : Nat) (requests : List WebRequest) (env : Env Ch)
    (knowledge : Knowledge Ch) (program : Program Ch) : Prop where
  next : Pays request (program.next env) knowledge (owes (program.next env))
  listeners : ∀ listener ∈ program.listeners, Pays request listener knowledge (owes listener)
  balance : ∃ due : List MessageEventData,
    Multiset.Rel (Announces knowledge requests) ((program.observed env n).filterMap (fileBody requests)) due ∧
      (owes program + due : Multiset MessageEventData) =
        (program.observed env n).filterMap Observation.event + owes (program.next env) + program.listeners.flatMap owes

theorem settles_quiet [FileSystem] (request : WebRequest) (n : Nat) (requests : List WebRequest) (env : Env Ch)
    (knowledge : Knowledge Ch) (program : Program Ch) (owed : List MessageEventData) (owing : owes program = owed)
    (next : Pays request (program.next env) knowledge owed) (listeners : program.listeners = [])
    (bodies : (program.observed env n).filterMap (fileBody requests) = [])
    (events : (program.observed env n).filterMap Observation.event = []) :
    Settles request n requests env knowledge program := by
  obtain rfl := pays_owes request _ _ _ next
  refine ⟨next, by simp [listeners], [], ?_, ?_⟩
  · rw [bodies]
    exact Multiset.Rel.zero
  · simp [events, listeners, owing]

theorem due_announced [FileSystem] (request : WebRequest) (n : Nat) (requests : List WebRequest)
    (numbered : requests[n]? = some request)
    (knowledge : Knowledge Ch) (c : Ch) (part : Part) (buf : Bytes) (due : List MessageEventData)
    (owed : Due request knowledge c part buf due) :
    Multiset.Rel (Announces knowledge requests) ([Observation.queued n c part buf].filterMap (fileBody requests)) due := by
  rw [Due] at owed
  by_cases announced : request.announces = true ∧ part = .body
  · rw [if_pos announced] at owed
    obtain ⟨announces, rfl⟩ := announced
    obtain ⟨data, rfl, reports⟩ := owed
    have one : [Observation.queued n c .body buf].filterMap (fileBody requests) = [(n, c, buf)] := by
      simp [fileBody, numbered, announces]
    rw [one]
    exact Multiset.Rel.cons ⟨request, numbered, reports⟩ Multiset.Rel.zero
  · rw [if_neg announced] at owed
    subst owed
    have none : [Observation.queued n c part buf].filterMap (fileBody requests) = [] := by
      cases part with
      | header => rfl
      | body => simpa [fileBody, numbered] using announced
    rw [none]
    exact Multiset.Rel.zero

theorem settles [FileSystem] (request : WebRequest) (n : Nat) (requests : List WebRequest)
    (numbered : requests[n]? = some request) (env : Env Ch) (knowledge more : Knowledge Ch) (le : knowledge.Le more)
    (gets : ∀ element c, env.get element = some c → more.stands element c)
    (reads : ∀ path content, env.read path = some content → more.holds path content)
    (program : Program Ch) (pays : Pays request program knowledge (owes program)) :
    Settles request n requests env more program := by
  cases program with
  | done => exact settles_quiet request n requests env more _ [] rfl rfl rfl rfl rfl
  | raise exception => exact settles_quiet request n requests env more _ [] rfl rfl rfl rfl rfl
  | get element next =>
      refine settles_quiet request n requests env more _ _ rfl ?_ rfl rfl rfl
      rw [Program.next]
      cases found : env.get element with
      | none => exact pays_more request _ _ _ le _ pays.1
      | some c => exact pays_more request _ _ _ (Knowledge.finding_le _ _ element c le (gets element c found)) _ (pays.2 c)
  | isActive c next =>
      exact settles_quiet request n requests env more _ _ rfl (pays_more request _ _ _ le _ (pays (env.isActive c))) rfl rfl rfl
  | read path next =>
      refine settles_quiet request n requests env more _ _ rfl ?_ rfl rfl rfl
      rw [Program.next]
      cases file : env.read path with
      | none => exact pays_more request _ _ _ le _ pays.1
      | some content =>
          exact pays_more request _ _ _ (Knowledge.reading_le _ _ path content le (reads path content file)) _ (pays.2 content)
  | publishEvent data next =>
      obtain ⟨rest, same, later⟩ := pays
      obtain ⟨_, rfl⟩ := List.cons.inj same
      refine ⟨pays_more request next _ _ le _ later, by simp [Program.listeners], [], Multiset.Rel.zero, ?_⟩
      simp [owes, Program.observed, Observation.event, Program.next, Program.listeners]
  | writeAndFlush c part buf listener next =>
      obtain ⟨⟨due, for_, listens⟩, later⟩ := pays
      obtain rfl := pays_owes request listener _ _ listens
      have owed := due_more request _ _ le c part buf _ for_
      refine ⟨pays_more request next _ _ le _ later, ?_, owes listener, ?_, ?_⟩
      · simpa [Program.listeners] using pays_more request listener _ _ le _ listens
      · exact due_announced request n requests numbered more c part buf _ owed
      · simp only [owes, Program.observed, Program.next, Program.listeners, List.flatMap_singleton, Multiset.coe_add]
        rfl


namespace WebService

def fileBodies (s : WebService Ch) : List (Nat × Ch × Bytes) := s.pool.log.filterMap (fileBody s.requests)

def announced (s : WebService Ch) : List MessageEventData := s.pool.log.filterMap Observation.event

def due (s : WebService Ch) : List MessageEventData := s.pool.tasks.flatMap fun task => owes task.program

end WebService

-- The event is a request's, and the log before it has the file it tells of.
def SentBefore [FileSystem] (id : Ch → JString) (s : WebService Ch) (before : List (Observation Ch))
    (data : MessageEventData) : Prop :=
  ∃ body ∈ before.filterMap (fileBody s.requests), Announces (learned id s.disks) s.requests body data

def Truthful [FileSystem] (id : Ch → JString) (s : WebService Ch) (before : List (Observation Ch)) : Observation Ch → Prop
  | .published data => SentBefore id s before data
  | _ => True

-- Each content that is written has one event of its own, published or owed by a
-- task.
structure Informed [FileSystem] (id : Ch → JString) (s : WebService Ch) : Prop where
  tasks : ∀ task ∈ s.pool.tasks, ∃ request, s.requests[task.request]? = some request ∧
    Pays request task.program (learned id s.disks) (owes task.program)
  numbered : ∀ n c part buf, .queued n c part buf ∈ s.pool.log → n < s.requests.length
  matched : Multiset.Rel (Announces (learned id s.disks) s.requests) s.fileBodies (s.announced + s.due)
  events : EachSupported (Truthful id s) s.pool.log
  owned : KeysOwned id s.server

theorem numbered_more {requests added : List WebRequest} {n : Nat} {request : WebRequest}
    (numbered : requests[n]? = some request) : (requests ++ added)[n]? = some request := by
  rw [List.getElem?_append_left (List.getElem?_eq_some_iff.mp numbered).1, numbered]

theorem announces_more [FileSystem] (knowledge more : Knowledge Ch) (le : knowledge.Le more) (requests added : List WebRequest)
    (body : Nat × Ch × Bytes) (data : MessageEventData) (announces : Announces knowledge requests body data) :
    Announces more (requests ++ added) body data := by
  obtain ⟨request, numbered, reports⟩ := announces
  exact ⟨request, numbered_more numbered, Knowledge.reports_more knowledge more request _ _ data le reports⟩

theorem file_body_more (requests added : List WebRequest) (observation : Observation Ch)
    (numbered : ∀ n c part buf, observation = .queued n c part buf → n < requests.length) :
    fileBody (requests ++ added) observation = fileBody requests observation := by
  cases observation with
  | queued n c part buf =>
      cases part with
      | header => rfl
      | body => rw [fileBody, fileBody, List.getElem?_append_left (numbered n c .body buf rfl)]
  | _ => rfl

theorem file_body_mem_more (requests added : List WebRequest) (log : List (Observation Ch)) (body : Nat × Ch × Bytes)
    (member : body ∈ log.filterMap (fileBody requests)) : body ∈ log.filterMap (fileBody (requests ++ added)) := by
  obtain ⟨observation, inside, written⟩ := List.mem_filterMap.mp member
  refine List.mem_filterMap.mpr ⟨observation, inside, ?_⟩
  rw [file_body_more requests added observation, written]
  rintro n c part buf rfl
  cases part with
  | header => cases written
  | body =>
      by_contra beyond
      rw [fileBody, List.getElem?_eq_none (Nat.le_of_not_lt beyond)] at written
      cases written

-- Where the requests and the disks have only grown.
theorem sent_before_more [FileSystem] (id : Ch → JString) (s t : WebService Ch) (added : List WebRequest)
    (others : List (JString → Option Bytes)) (requests : t.requests = s.requests ++ added) (disks : t.disks = s.disks ++ others)
    (before : List (Observation Ch)) (data : MessageEventData) (sent : SentBefore id s before data) : SentBefore id t before data := by
  obtain ⟨body, written, announces⟩ := sent
  refine ⟨body, ?_, ?_⟩
  · rw [requests]
    exact file_body_mem_more s.requests added before body written
  · rw [requests, disks]
    exact announces_more _ _ (learned_more id s.disks others) s.requests added body data announces

theorem events_more [FileSystem] (id : Ch → JString) (s t : WebService Ch) (added : List WebRequest)
    (others : List (JString → Option Bytes))
    (requests : t.requests = s.requests ++ added) (disks : t.disks = s.disks ++ others) (log : List (Observation Ch))
    (events : EachSupported (Truthful id s) log) : EachSupported (Truthful id t) log := by
  intro before observation after split
  have truthful := events before observation after split
  cases observation with
  | published data => exact sent_before_more id s t added others requests disks before data truthful
  | _ => trivial

theorem tasks_more [FileSystem] (id : Ch → JString) (s t : WebService Ch) (added : List WebRequest)
    (others : List (JString → Option Bytes))
    (requests : t.requests = s.requests ++ added) (disks : t.disks = s.disks ++ others) (task : Task Ch)
    (known : ∃ request, s.requests[task.request]? = some request ∧
      Pays request task.program (learned id s.disks) (owes task.program)) :
    ∃ request, t.requests[task.request]? = some request ∧
      Pays request task.program (learned id t.disks) (owes task.program) := by
  obtain ⟨request, numbered, pays⟩ := known
  rw [requests, disks]
  exact ⟨request, numbered_more numbered, pays_more request _ _ _ (learned_more id s.disks others) _ pays⟩

theorem informed_start [FileSystem] (id : Ch → JString) : Informed id (WebService.start : WebService Ch) where
  tasks _ member := nomatch member
  numbered _ _ _ _ member := nomatch member
  matched := Multiset.Rel.zero
  events := each_supported_nil _
  owned := keys_owned_start id

theorem settled_total {α : Type} (events left right owed now listeners published due : Multiset α)
    (balance : owed + due = published + now + listeners) :
    events + published + (left + now + right + listeners) = events + (left + owed + right) + due :=
  calc events + published + (left + now + right + listeners)
    _ = events + left + right + (published + now + listeners) := by abel
    _ = events + left + right + (owed + due) := by rw [balance]
    _ = events + (left + owed + right) + due := by abel

-- What the call of one task does to the account of all of them.
theorem matched_proceed [FileSystem] (id : Ch → JString) (s t : WebService Ch) (env : Env Ch) (left right : List (Task Ch))
    (task : Task Ch) (request : WebRequest) (requests : t.requests = s.requests) (others : List (JString → Option Bytes))
    (disks : t.disks = s.disks ++ others) (before : s.pool.tasks = left ++ task :: right)
    (after : t.pool.tasks =
      left ++ ⟨task.request, task.program.next env⟩ :: right ++ task.program.listeners.map (Task.mk task.request))
    (log : t.pool.log = s.pool.log ++ task.program.observed env task.request)
    (settled : Settles request task.request s.requests env (learned id t.disks) task.program)
    (matched : Multiset.Rel (Announces (learned id s.disks) s.requests) s.fileBodies (s.announced + s.due)) :
    Multiset.Rel (Announces (learned id t.disks) t.requests) t.fileBodies (t.announced + t.due) := by
  obtain ⟨due, written, balance⟩ := settled.balance
  have kept := matched.mono fun body _ data _ announces =>
    announces_more _ _ (learned_more id s.disks others) s.requests [] body data announces
  rw [List.append_nil, ← disks] at kept
  have both := Multiset.Rel.add kept written
  have bodies : (t.fileBodies : Multiset (Nat × Ch × Bytes)) =
      s.fileBodies + (task.program.observed env task.request).filterMap (fileBody s.requests) := by
    rw [WebService.fileBodies, requests, log, List.filterMap_append, Multiset.coe_add, WebService.fileBodies]
  have total : (t.announced + t.due : Multiset MessageEventData) = s.announced + s.due + due := by
    have owed : (s.due : Multiset MessageEventData) = left.flatMap (fun task => owes task.program) + owes task.program +
        right.flatMap fun task => owes task.program := by
      simp [WebService.due, before]
    have now : (t.due : Multiset MessageEventData) = left.flatMap (fun task => owes task.program) + owes (task.program.next env) +
        right.flatMap (fun task => owes task.program) + task.program.listeners.flatMap owes := by
      simp [WebService.due, after, List.flatMap_map]
    have events : (t.announced : Multiset MessageEventData) =
        s.announced + (task.program.observed env task.request).filterMap Observation.event := by
      rw [WebService.announced, log, List.filterMap_append, Multiset.coe_add, WebService.announced]
    rw [owed, now, events]
    exact settled_total _ _ _ _ _ _ _ _ balance
  rw [bodies, total, requests]
  exact both


theorem informed_proceed [FileSystem] (id : Ch → JString) (s : WebService Ch) (i : Nat) (files : JString → Option Bytes)
    (informed : Informed id s) : Informed id { s with disks := s.disks ++ [files], pool := s.pool.proceed (s.env files) i } := by
  have truthful := events_more id s { s with disks := s.disks ++ [files] } [] [files] (List.append_nil _).symm rfl s.pool.log
    informed.events
  have known := fun task member => tasks_more id s { s with disks := s.disks ++ [files] } [] [files] (List.append_nil _).symm rfl
    task (informed.tasks task member)
  cases Pool.proceed_cases (s.env files) s.pool i with
  | idle same =>
      rw [same]
      refine ⟨known, informed.numbered, informed.matched.mono fun body _ data _ announces => ?_, truthful, informed.owned⟩
      have more := announces_more _ _ (learned_more id s.disks [files]) s.requests [] body data announces
      rwa [List.append_nil] at more
  | taken left task right found before after log =>
      obtain ⟨request, numbered, pays⟩ := informed.tasks task (by simp [before])
      have settled : Settles request task.request s.requests (s.env files) (learned id (s.disks ++ [files])) task.program := by
        refine settles request task.request s.requests numbered _ _ _ (learned_more id s.disks [files]) ?_ ?_ _ pays
        · exact fun element c registered => informed.owned.keys element c registered
        · exact fun path content file => ⟨files, by simp, file⟩
      refine ⟨?_, ?_, ?_, ?_, informed.owned⟩
      · refine Pool.each_task_proceed (s.env files) s.pool i _ _ known (fun _ kept => kept) fun other same _ => ?_
        obtain rfl : task = other := Option.some.inj (found.symm.trans same)
        exact ⟨⟨request, numbered, settled.next⟩, fun listener member => ⟨request, numbered, settled.listeners listener member⟩⟩
      · intro n c part buf member
        rw [log] at member
        rcases List.mem_append.mp member with old | new
        · exact informed.numbered n c part buf old
        · cases program : task.program with
          | writeAndFlush d other bytes listener next =>
              rw [program, Program.observed, List.mem_singleton] at new
              cases new
              exact (List.getElem?_eq_some_iff.mp numbered).1
          | _ => simp [program, Program.observed] at new
      · exact matched_proceed id s _ (s.env files) left right task request rfl [files] rfl before after log settled informed.matched
      · simp only [log]
        cases program : task.program with
        | publishEvent data next =>
            refine each_supported_snoc _ _ _ truthful ?_
            have owed : data ∈ (s.announced + s.due : Multiset MessageEventData) := by
              simp [WebService.due, before, program, owes]
            obtain ⟨body, written, announces⟩ := Multiset.exists_mem_of_rel_of_mem (Multiset.rel_flip.mpr informed.matched) owed
            have more := announces_more _ _ (learned_more id s.disks [files]) s.requests [] body data announces
            rw [List.append_nil] at more
            exact ⟨body, written, more⟩
        | isActive c next => exact each_supported_snoc _ _ _ truthful trivial
        | writeAndFlush c part buf listener next => exact each_supported_snoc _ _ _ truthful trivial
        | _ =>
            simp only [Program.observed, List.append_nil]
            exact truthful

variable [DecidableEq Ch]

theorem informed_read [FileSystem] (id : Ch → JString) (s : WebService Ch) (c : Ch) (msg : Chunk) (informed : Informed id s) :
    Informed id (s.read id c msg) where
  tasks := informed.tasks
  numbered n d part buf member := informed.numbered n d part buf (by simpa [WebService.read] using member)
  matched := by
    have bodies : (s.read id c msg).fileBodies = s.fileBodies := by
      rw [WebService.fileBodies, WebService.read, List.filterMap_append, List.filterMap_cons_none rfl, List.filterMap_nil,
        List.append_nil, WebService.fileBodies]
    have events : (s.read id c msg).announced = s.announced := by
      rw [WebService.announced, WebService.read, List.filterMap_append, List.filterMap_cons_none rfl, List.filterMap_nil,
        List.append_nil, WebService.announced]
    rw [bodies, events]
    exact informed.matched
  events := by
    apply each_supported_snoc
    · exact informed.events
    · trivial
  owned := keys_owned_call id s.server (.channelRead0 c msg) informed.owned

theorem informed_request [FileSystem] (id : Ch → JString) (secure : Ch → Bool) (s : WebService Ch) (request : WebRequest)
    (informed : Informed id s) : Informed id (s.step id secure (.request request)) where
  tasks := by
    apply forall_snoc
    · exact fun task member => tasks_more id s (s.step id secure (.request request)) [request] [] rfl (List.append_nil _).symm task
        (informed.tasks task member)
    · have pays := request_pays secure request (learned id s.disks)
      rw [← pays_owes request _ _ _ pays] at pays
      exact ⟨request, List.getElem?_concat_length, pays⟩
  numbered n c part buf member := by
    have earlier := informed.numbered n c part buf member
    simp only [WebService.step, List.length_append]
    exact Nat.lt_add_right _ earlier
  matched := by
    have bodies : (s.step id secure (.request request)).fileBodies = s.fileBodies := by
      refine List.filterMap_congr fun observation member => file_body_more s.requests [request] observation ?_
      rintro n c part buf rfl
      exact informed.numbered n c part buf member
    have due : (s.step id secure (.request request)).due = s.due := by
      simp [WebService.due, WebService.step, pays_owes request _ _ _ (request_pays secure request (learned id s.disks))]
    rw [bodies, due]
    refine informed.matched.mono fun body _ data _ announces => ?_
    exact announces_more _ _ (Knowledge.le_refl _) s.requests [request] body data announces
  events :=
    events_more id s (s.step id secure (.request request)) [request] [] rfl (List.append_nil _).symm s.pool.log informed.events
  owned := informed.owned

theorem informed_step [FileSystem] (id : Ch → JString) (secure : Ch → Bool) (s : WebService Ch) (action : ServiceAction Ch)
    (informed : Informed id s) : Informed id (s.step id secure action) := by
  cases action with
  | channelActive c => exact ⟨informed.tasks, informed.numbered, informed.matched, informed.events, informed.owned⟩
  | channelRead0 c msg => exact informed_read id s c msg informed
  | close c => exact ⟨informed.tasks, informed.numbered, informed.matched, informed.events, informed.owned⟩
  | channelInactive c =>
      exact ⟨informed.tasks, informed.numbered, informed.matched,
        events_more id s (s.step id secure (.channelInactive c)) [] [] (List.append_nil _).symm (List.append_nil _).symm s.pool.log
          informed.events,
        keys_owned_call id s.server (.channelInactive c) informed.owned⟩
  | request request => exact informed_request id secure s request informed
  | proceed i files => exact informed_proceed id s i files informed

theorem informed_reached [FileSystem] (id : Ch → JString) (secure : Ch → Bool) (actions : List (ServiceAction Ch)) :
    Informed id (reached id secure actions) :=
  invariant_run (WebService.step id secure) (Informed id) (informed_step id secure) WebService.start actions (informed_start id)

omit [DecidableEq Ch] in
theorem nothing_due (s : WebService Ch) (finished : s.pool.Finished) : s.due = [] := by
  refine List.flatMap_eq_nil_iff.mpr fun task member => ?_
  rcases program_done task.program (finished task member) with done | ⟨exception, raised⟩
  · rw [done, owes]
  · rw [raised, owes]

-- No FileSent event is lost and none is published twice: the contents written and
-- the events match one by one, but for the events that listeners still owe.
theorem files_announced_once [FileSystem] (id : Ch → JString) (secure : Ch → Bool) (actions : List (ServiceAction Ch)) :
    Multiset.Rel (Announces (learned id (reached id secure actions).disks) (reached id secure actions).requests)
        (reached id secure actions).fileBodies ((reached id secure actions).announced + (reached id secure actions).due) ∧
      ((reached id secure actions).pool.Finished →
        Multiset.Rel (Announces (learned id (reached id secure actions).disks) (reached id secure actions).requests)
          (reached id secure actions).fileBodies (reached id secure actions).announced) := by
  have matched := (informed_reached id secure actions).matched
  refine ⟨matched, fun finished => ?_⟩
  rwa [nothing_due _ finished, Multiset.coe_nil, add_zero] at matched

def sentFile : FrameRequest :=
  .nfile (some ⟨some (ofString "/w"), none⟩) ⟨none, some [ofString "a(d53f5b8e)"], some [ofString "f"]⟩

def oneFile (path : JString) : Option Bytes := if path = ofString "/w/f" then some [7, 8] else none

def sentActions : List (ServiceAction Nat) :=
  .channelActive 0 :: .channelRead0 0 chunkA :: .request (.frames sentFile) ::
    [0, 0, 0, 0, 0, 1, 1, 2].map fun i => .proceed i oneFile

open Unix

theorem sent_file_announced_once :
    Multiset.Rel (Announces (learned sampleId (reached sampleId (fun _ => true) sentActions).disks)
        (reached sampleId (fun _ => true) sentActions).requests)
      (reached sampleId (fun _ => true) sentActions).fileBodies (reached sampleId (fun _ => true) sentActions).announced :=
  (files_announced_once sampleId (fun _ => true) sentActions).2 (by decide +kernel)

end Nenes
