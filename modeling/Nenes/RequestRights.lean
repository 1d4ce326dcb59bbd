import Nenes.Rights
import Nenes.WebService

set_option autoImplicit false

namespace Nenes

open ByteBuf

variable {Ch : Type}

-- The rights a request has before it has looked anything up.
def WebRequest.rights [FileSystem] (request : WebRequest) : Rights Ch :=
  ⟨fun _ => False, fun _ => request.asksActive = false, request.Carries fun _ _ => False⟩

def WebRequest.Keeps [FileSystem] (request : WebRequest) (rights : Rights Ch) (program : Program Ch) : Prop :=
  Within request.agents request.paths rights program

theorem message_loop_within (names paths : List JString) (rights : Rights Ch) (msg : JString) (agentNames : List JString)
    (listed : ∀ element ∈ agentNames, element ∈ names)
    (header : rights.carries .header (NOperationCommand.initializeProtocol msg)) (body : rights.carries .body (getBytes msg)) :
    Within names paths rights (NOperationCommand.sendLoop msg agentNames) := by
  induction agentNames generalizing rights with
  | nil => trivial
  | cons element rest ih =>
      obtain ⟨first, later⟩ := List.forall_mem_cons.mp listed
      refine ⟨first, ih rights later header body, fun c => ⟨?_, ih (rights.reaching c) later header body⟩⟩
      exact ⟨⟨.inr rfl, .inr rfl, header⟩, trivial, ⟨.inr rfl, .inr rfl, body⟩, trivial,
        ih ((rights.reaching c).finding c) later header body⟩

theorem operation_within [FileSystem] (message : Message) :
    WebRequest.Keeps (.frames (.operation message)) (WebRequest.rights (.frames (.operation message)))
      (OperationCommand.sendCommand message : Program Ch) := by
  by_cases missing : message.msg = none ∨ message.agent = none
  · rw [OperationCommand.send_command_missing message missing]
    trivial
  · obtain ⟨hasText, hasNames⟩ := not_or.mp missing
    obtain ⟨msg, text⟩ := Option.ne_none_iff_exists'.mp hasText
    obtain ⟨agentNames, names⟩ := Option.ne_none_iff_exists'.mp hasNames
    rw [OperationCommand.sendCommand, names, text]
    apply message_loop_within
    · simp [WebRequest.agents, names]
    · exact .inl ⟨msg, text, rfl⟩
    · exact .inl ⟨msg, text, rfl⟩

theorem noperation_within [FileSystem] (message : Message) :
    WebRequest.Keeps (.frames (.noperation message)) (WebRequest.rights (.frames (.noperation message)))
      (NOperationCommand.sendCommand message : Program Ch) := by
  cases NOperationCommand.send_command_cases Ch message with
  | loops msg agentNames text _ names same =>
      rw [same]
      apply message_loop_within
      · simp [WebRequest.agents, names]
      · exact .inl ⟨msg, text, rfl⟩
      · exact .inl ⟨msg, text, rfl⟩
  | nothing _ _ same =>
      rw [same]
      trivial
  | watches _ same =>
      rw [same]
      trivial

theorem operation_complete_within [FileSystem] (request : WebRequest) (rights : Rights Ch) (c : Ch) (msg element : JString)
    (named : msg ∈ request.paths) (allowed : rights.allowed c) (found : rights.found c) :
    Within request.agents request.paths rights (NFileCommand.operationComplete c msg element) :=
  ⟨named, trivial, fun _ => ⟨⟨allowed, found, .inr ⟨rfl, rfl⟩⟩, trivial, trivial⟩⟩

-- What follows the lookup of a registered channel, in either command: the file
-- is opened, measured and announced, and its listener runs.
theorem file_frame_within [FileSystem] (request : WebRequest) (rights : Rights Ch) (c : Ch) (path : JString) (next : Program Ch)
    (listener : Program Ch) (initializeProtocol : JString → Int → Bytes) (named : path ∈ request.paths)
    (allowed : rights.allowed c) (found : rights.found c)
    (header : ∀ length : Nat, rights.carries .header (initializeProtocol path length))
    (runs : ∀ more : Rights Ch, rights.Le more → request.Keeps more listener)
    (rest : ∀ more : Rights Ch, rights.Le more → request.Keeps more next) :
    request.Keeps rights (.read path fun
      | none => next
      | some _ => .read path fun file =>
          .writeAndFlush c .header (initializeProtocol path ((file.map List.length).getD 0 : Nat)) listener next) := by
  refine ⟨named, rest rights (Rights.le_refl rights), fun content => ⟨named, ?_, fun again => ?_⟩⟩
  · have more := Rights.reading_more rights content
    exact ⟨⟨allowed, found, .inl (header 0)⟩, runs _ more, rest _ more⟩
  · have more := Rights.le_trans _ _ _ (Rights.reading_more rights content) (Rights.reading_more _ again)
    exact ⟨⟨allowed, found, .inl (.inl (header again.length))⟩, runs _ more, rest _ more⟩

theorem send_files_within [FileSystem] (conf : Option Configuration) (fileMessage : FileMessage) (element : JString)
    (next : Program Ch) (paths : List JString) (listed : element ∈ fileMessage.agent.getD [])
    (named : ∀ path ∈ paths, path ∈ WebRequest.paths (.frames (.nfile conf fileMessage))) (rights : Rights Ch)
    (carries : ∀ path ∈ paths, ∀ length : Nat, rights.carries .header (NFileCommand.initializeProtocol path length))
    (rest : ∀ more : Rights Ch, rights.Le more → WebRequest.Keeps (.frames (.nfile conf fileMessage)) more next) :
    WebRequest.Keeps (.frames (.nfile conf fileMessage)) rights (NFileCommand.sendFiles element next paths) := by
  induction paths generalizing rights with
  | nil => exact rest rights (Rights.le_refl rights)
  | cons path others ih =>
      obtain ⟨here, later⟩ := List.forall_mem_cons.mp named
      obtain ⟨header, headers⟩ := List.forall_mem_cons.mp carries
      have onward : ∀ more : Rights Ch, rights.Le more →
          WebRequest.Keeps (.frames (.nfile conf fileMessage)) more (NFileCommand.sendFiles element next others) := by
        intro more le
        exact within_mono _ _ _ rights more le (ih later rights headers rest)
      refine ⟨listed, onward rights (Rights.le_refl rights), fun c => ⟨?_, onward _ (Rights.reaching_more rights c)⟩⟩
      have reached := Rights.le_trans _ _ _ (Rights.reaching_more rights c) (Rights.finding_more _ c)
      have allowed : ((rights.reaching c).finding c).allowed c := .inr rfl
      have found : ((rights.reaching c).finding c).found c := .inr rfl
      exact file_frame_within _ _ c path _ _ NFileCommand.initializeProtocol here allowed found header
        (fun more le => operation_complete_within _ more c path element here (le.allowed c allowed) (le.found c found))
        fun more le => onward more (Rights.le_trans _ _ _ reached le)

theorem file_loop_within [FileSystem] (conf : Configuration) (fileMessage : FileMessage) (agentNames : List JString)
    (listed : ∀ element ∈ agentNames, element ∈ fileMessage.agent.getD []) (rights : Rights Ch)
    (le : (WebRequest.rights (.frames (.nfile (some conf) fileMessage))).Le rights) :
    WebRequest.Keeps (.frames (.nfile (some conf) fileMessage)) rights
      (NFileCommand.sendLoop conf.fileDirectory fileMessage agentNames) := by
  have carries : ∀ (more : Rights Ch), rights.Le more → ∀ path ∈ WebRequest.paths (.frames (.nfile (some conf) fileMessage)),
      ∀ length : Nat, more.carries .header (NFileCommand.initializeProtocol path length) := by
    intro more further path member length
    exact further.carries _ _ (le.carries _ _ (.inr ⟨path, member, length, rfl⟩))
  induction agentNames generalizing rights with
  | nil => trivial
  | cons element rest ih =>
      obtain ⟨first, later⟩ := List.forall_mem_cons.mp listed
      have typed : ∀ path ∈ NFileCommand.typedFiles fileMessage,
          path ∈ WebRequest.paths (.frames (.nfile (some conf) fileMessage)) := fun path member =>
        List.mem_append_left _ member
      rw [NFileCommand.sendLoop]
      apply send_files_within (some conf) fileMessage element _ _ first typed
      · exact fun path member => carries rights (Rights.le_refl rights) path (typed path member)
      intro more further
      cases names : fileMessage.fileList with
      | none => trivial
      | some fileList =>
          have selected : ∀ path ∈ fileList.map (NFileCommand.selectedPath conf.fileDirectory),
              path ∈ WebRequest.paths (.frames (.nfile (some conf) fileMessage)) := by
            intro path member
            apply List.mem_append_right
            rw [names]
            exact member
          apply send_files_within (some conf) fileMessage element _ _ first selected
          · exact fun path member => carries more further path (selected path member)
          intro most farther
          have all := Rights.le_trans _ _ _ further farther
          exact ih later most (Rights.le_trans _ _ _ le all) fun last beyond => carries last (Rights.le_trans _ _ _ all beyond)

theorem nfile_within [FileSystem] (conf : Option Configuration) (fileMessage : FileMessage) :
    WebRequest.Keeps (.frames (.nfile conf fileMessage)) (WebRequest.rights (.frames (.nfile conf fileMessage)))
      (NFileCommand.sendCommand conf fileMessage : Program Ch) := by
  cases conf with
  | none => trivial
  | some conf =>
      rw [NFileCommand.sendCommand]
      cases names : fileMessage.agent with
      | none => trivial
      | some agentNames =>
          apply file_loop_within conf fileMessage agentNames _ _ (Rights.le_refl _)
          simp [names]

theorem file_within [FileSystem] (secure : Ch → Bool) (fileMessage : FileMessage) :
    WebRequest.Keeps (.file fileMessage) (WebRequest.rights (.file fileMessage)) (FileCommand.sendCommand secure fileMessage) := by
  have loop : ∀ (agentNames : List JString) (rights : Rights Ch),
      (∀ element ∈ agentNames, element ∈ fileMessage.agent.getD []) →
      (WebRequest.rights (.file fileMessage)).Le rights →
      WebRequest.Keeps (.file fileMessage) rights (FileCommand.sendLoop secure fileMessage.fileName agentNames) := by
    intro agentNames
    induction agentNames with
    | nil => exact fun _ _ _ => trivial
    | cons element rest ih =>
        intro rights listed le
        obtain ⟨first, later⟩ := List.forall_mem_cons.mp listed
        cases typed : fileMessage.fileName with
        | none =>
            rw [FileCommand.sendLoop, ← typed]
            exact ih rights later le
        | some msg =>
            have named : msg ∈ WebRequest.paths (.file fileMessage) := by simp [WebRequest.paths, typed]
            rw [FileCommand.sendLoop, ← typed]
            refine ⟨first, trivial, fun c => ?_⟩
            have reached := Rights.le_trans _ _ _ le (Rights.reaching_more rights c)
            have allowed : (rights.reaching c).allowed c := .inr rfl
            have unasked := reached.found c rfl
            refine file_frame_within _ _ c msg _ _ FileCommand.initializeProtocol named allowed unasked
              (fun length => reached.carries _ _ (.inr ⟨msg, named, length, rfl⟩)) (fun more further => ?_)
              fun more further => ih more later (Rights.le_trans _ _ _ reached further)
            refine ⟨named, trivial, fun content => ?_⟩
            cases secure c with
            | true => trivial
            | false =>
                exact ⟨⟨further.allowed c allowed, further.found c unasked, .inr ⟨rfl, rfl⟩⟩, trivial, trivial⟩
  rw [FileCommand.sendCommand]
  cases names : fileMessage.agent with
  | none => trivial
  | some agentNames => exact loop agentNames _ (by simp [names]) (Rights.le_refl _)

theorem request_within [FileSystem] (secure : Ch → Bool) (request : WebRequest) :
    request.Keeps request.rights (request.program secure) := by
  cases request with
  | frames request =>
      cases request with
      | operation message => exact operation_within message
      | noperation message => exact noperation_within message
      | nfile conf fileMessage => exact nfile_within conf fileMessage
  | file fileMessage => exact file_within secure fileMessage

end Nenes
