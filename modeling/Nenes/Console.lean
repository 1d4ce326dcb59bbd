import Nenes.DirWatchService
import Nenes.NotificationMenu
import Nenes.SentEvents
import Nenes.SessionIds

set_option autoImplicit false

namespace Nenes

open ByteBuf OperationServerHandler Runs EventLog

variable {Ch S : Type} [DecidableEq Ch] [DecidableEq S]

-- The whole service, with the pages that are told of its events.
structure Console (Ch S : Type) where
  service : WebService Ch
  ws : WsHandler S

inductive ConsoleAction (Ch S : Type) where
  | service (action : ServiceAction Ch) (now : LocalTime) (fails : S → Bool)
  | created (name : JString) (now : LocalTime) (fails : S → Bool)
  | afterConnectionEstablished (session : S) (sessionId : JString) (fails : S → Bool)
  | close (session : S)
  | afterConnectionClosed (session : S)

namespace Console

def start : Console Ch S := ⟨WebService.start, (Monitor.start : Monitor Ch S).ws⟩

-- What the handlers and what the requests publish in a step.
def news (before after : WebService Ch) : List MessageEventData :=
  (Monitor.published before.server after.server).map MessageEvent.data ++
    (after.pool.log.drop before.pool.log.length).filterMap Observation.event

def step [FileSystem] (id : Ch → JString) (secure : Ch → Bool) (c : Console Ch S) : ConsoleAction Ch S → Console Ch S
  | .service action now fails =>
      let service := c.service.step id secure action
      ⟨service, (news c.service service).foldl (fun ws data => ws.onApplicationEvent fails now data) c.ws⟩
  | .created name now fails => { c with ws := c.ws.onApplicationEvent fails now (DirWatchService.fileIn name) }
  | .afterConnectionEstablished session sessionId fails =>
      { c with ws := c.ws.afterConnectionEstablished fails sessionId session }
  | .close session => { c with ws := c.ws.close session }
  | .afterConnectionClosed session => { c with ws := c.ws.afterConnectionClosed session }

def monitor (c : Console Ch S) : Monitor Ch S := ⟨c.service.server, c.ws⟩

def serviceAction : ConsoleAction Ch S → Option (ServiceAction Ch)
  | .service action _ _ => some action
  | _ => none

-- What a step of the whole is to the monitor.
def happenings [FileSystem] (id : Ch → JString) (secure : Ch → Bool) (c : Console Ch S) : ConsoleAction Ch S →
    List (Happening Ch S)
  | .service (.channelRead0 ch msg) now fails => [.call (.channelRead0 ch msg) now fails]
  | .service (.channelInactive ch) now fails => [.call (.channelInactive ch) now fails]
  | .service action now fails =>
      (news c.service (c.service.step id secure action)).map fun data => .fileSent data.publisher data.message now fails
  | .created name now fails => [.fileIn (DirWatchService.fileIn name).publisher (DirWatchService.fileIn name).message now fails]
  | .afterConnectionEstablished session sessionId fails => [.afterConnectionEstablished session sessionId fails]
  | .close session => [.close session]
  | .afterConnectionClosed session => [.afterConnectionClosed session]

end Console

open Console

theorem console_service [FileSystem] (id : Ch → JString) (secure : Ch → Bool) (c : Console Ch S)
    (actions : List (ConsoleAction Ch S)) :
    (run (Console.step id secure) c actions).service = run (WebService.step id secure) c.service (actions.filterMap serviceAction) := by
  induction actions generalizing c with
  | nil => rfl
  | cons action rest ih =>
      rw [run_cons, ih]
      cases action with
      | _ => rfl

omit [DecidableEq Ch] in
theorem published_sent [FileSystem] (id : Ch → JString) (s : WebService Ch) (informed : Informed id s) (data : MessageEventData)
    (published : .published data ∈ s.pool.log) : data.eventType = .fileSent := by
  obtain ⟨before, after, split⟩ := List.append_of_mem published
  obtain ⟨_, _, _, _, element, _, path, _, rfl, _⟩ := informed.events before _ after split
  rfl

omit [DecidableEq Ch] [DecidableEq S] in
theorem fold_published (ws : WsHandler S) (now : LocalTime) (fails : S → Bool) (events : List (MessageEvent Ch)) :
    (events.map MessageEvent.data).foldl (fun ws data => ws.onApplicationEvent fails now data) ws =
      events.foldl (fun ws event => ws.onApplicationEvent fails now event.data) ws := by
  rw [List.foldl_map]

theorem run_file_sent (id : Ch → JString) (m : Monitor Ch S) (now : LocalTime) (fails : S → Bool) (events : List MessageEventData)
    (sent : ∀ data ∈ events, data.eventType = .fileSent) :
    run (Monitor.step id) m (events.map fun data => .fileSent data.publisher data.message now fails) =
      ⟨m.server, events.foldl (fun ws data => ws.onApplicationEvent fails now data) m.ws⟩ := by
  induction events generalizing m with
  | nil => rfl
  | cons data rest ih =>
      obtain ⟨first, later⟩ := List.forall_mem_cons.mp sent
      rw [List.map_cons, run_cons, ih _ later, List.foldl_cons, Monitor.step, ← first]

omit [DecidableEq Ch] in
theorem quiet_news (before after : WebService Ch) (same : after.server = before.server) (data : MessageEventData)
    (member : data ∈ news before after) : .published data ∈ after.pool.log := by
  rw [news, same, Monitor.published, List.drop_length, List.map_nil, List.nil_append, List.mem_filterMap] at member
  obtain ⟨observation, inside, event⟩ := member
  cases observation with
  | published other =>
      cases event
      exact List.mem_of_mem_drop inside
  | _ => cases event

-- The handlers stand still, so what is new is what the requests publish.
theorem quiet_step [FileSystem] (id : Ch → JString) (secure : Ch → Bool) (c : Console Ch S) (action : ServiceAction Ch)
    (now : LocalTime) (fails : S → Bool) (same : (c.service.step id secure action).server = c.service.server)
    (informed : Informed id (c.service.step id secure action)) :
    (c.step id secure (.service action now fails)).monitor =
      run (Monitor.step id) c.monitor ((news c.service (c.service.step id secure action)).map fun data =>
        .fileSent data.publisher data.message now fails) := by
  rw [run_file_sent]
  · simp only [Console.step, monitor, same]
  · exact fun data member => published_sent id _ informed data (quiet_news _ _ same data member)

theorem monitor_step [FileSystem] (id : Ch → JString) (secure : Ch → Bool) (c : Console Ch S) (action : ConsoleAction Ch S)
    (informed : Informed id c.service) :
    (c.step id secure action).monitor = run (Monitor.step id) c.monitor (c.happenings id secure action) := by
  cases action with
  | service action now fails =>
      have after := informed_step id secure c.service action informed
      cases action with
      | channelRead0 ch msg =>
          have told : news c.service (c.service.step id secure (.channelRead0 ch msg)) =
              (Monitor.published c.service.server (Server.call id c.service.server (.channelRead0 ch msg))).map MessageEvent.data := by
            simp [news, WebService.step, WebService.read, Observation.event]
          rw [happenings, run_cons, run_nil, Console.step, told, fold_published]
          rfl
      | channelInactive ch =>
          have told : news c.service (c.service.step id secure (.channelInactive ch)) =
              (Monitor.published c.service.server (Server.call id c.service.server (.channelInactive ch))).map MessageEvent.data := by
            simp [news, WebService.step]
          rw [happenings, run_cons, run_nil, Console.step, told, fold_published]
          rfl
      | channelActive ch => exact quiet_step id secure c _ now fails rfl after
      | close ch => exact quiet_step id secure c _ now fails rfl after
      | request request => exact quiet_step id secure c _ now fails rfl after
      | proceed i files => exact quiet_step id secure c _ now fails rfl after
  | created name now fails => rfl
  | afterConnectionEstablished session sessionId fails => rfl
  | close session => rfl
  | afterConnectionClosed session => rfl

theorem console_informed [FileSystem] (id : Ch → JString) (secure : Ch → Bool) (actions : List (ConsoleAction Ch S)) :
    Informed id (run (Console.step id secure) Console.start actions).service := by
  rw [console_service]
  exact informed_reached id secure (actions.filterMap serviceAction)

theorem console_monitor [FileSystem] (id : Ch → JString) (secure : Ch → Bool) (actions : List (ConsoleAction Ch S)) :
    (run (Console.step id secure) Console.start actions).monitor =
      run (Monitor.step id) Monitor.start (expand (Console.step id secure) (happenings id secure) Console.start actions) := by
  have simulates := simulation_expand (Console.step id secure) (Monitor.step id) (happenings id secure)
    (fun c m => Informed id c.service ∧ c.monitor = m) ?_ Console.start Monitor.start actions ⟨informed_start id, rfl⟩
  · exact simulates.2
  · intro c m action related
    obtain ⟨informed, rfl⟩ := related
    refine ⟨?_, monitor_step id secure c action informed⟩
    cases action with
    | service action now fails => exact informed_step id secure c.service action informed
    | _ => exact informed

-- The notices of one kind among a page's texts, without their times.
def noticeOf (kind : EventType) (text : JString) : Option JString :=
  (afterTime text).filter fun body => startsWith body (kind.name ++ ofString " ")

theorem five_letters (kind other : EventType) (same : kind.name.take 5 = other.name.take 5) : kind = other := by
  revert same
  cases kind with
  | _ =>
      cases other with
      | _ => decide +kernel

theorem starts_with_kind (kind : EventType) (data : MessageEventData) :
    startsWith (notificationBody data) (kind.name ++ ofString " ") = true ↔ data.eventType = kind := by
  have long (kind : EventType) : 5 ≤ kind.name.length := by
    cases kind with
    | _ => decide +kernel
  have body : notificationBody data = data.eventType.name ++ (ofString " " ++ data.publisher ++ ofString " " ++ data.message) := by
    simp [notificationBody]
  constructor
  · intro word
    rw [startsWith, List.isPrefixOf_iff_prefix] at word
    obtain ⟨rest, same⟩ := word
    have taken := congrArg (List.take 5) same
    rw [body, List.append_assoc, List.take_append_of_le_length (long _), List.take_append_of_le_length (long _)] at taken
    exact five_letters _ _ taken.symm
  · rintro rfl
    simp only [body, List.append_assoc]
    rw [← List.append_assoc]
    exact starts_with_append _ _

theorem notice_of_notification (kind : EventType) (data : MessageEventData) (now : LocalTime) :
    noticeOf kind (data.notificationFormat now.text) = if data.eventType = kind then some (notificationBody data) else none := by
  rw [noticeOf, after_time_notification, Option.filter_some]
  simp only [starts_with_kind]

theorem notice_of_debug (kind : EventType) (sessionId : JString) : noticeOf kind (WsHandler.debugText sessionId) = none := by
  obtain ⟨rest, debug⟩ := after_time_debug sessionId
  obtain ⟨first, tail, name, other⟩ := Broadcast.event_name_first kind
  rw [noticeOf, debug, name, Option.filter_some, List.cons_append, starts_with_other first 121 _ rest other]
  rfl

theorem registry_event_types (id : Ch → JString) (happenings : List (Happening Ch S)) :
    ∀ event ∈ (run (Monitor.step id) (Monitor.start : Monitor Ch S) happenings).server.events,
      event.data.eventType = .connected ∨ event.data.eventType = .disconnected := by
  apply invariant_run (Monitor.step id) fun m : Monitor Ch S => ∀ event ∈ m.server.events,
    event.data.eventType = .connected ∨ event.data.eventType = .disconnected
  · intro m happening before
    cases happening with
    | call action now fails =>
        cases action with
        | channelRead0 c msg =>
            cases Server.call_read_cases id m.server c msg with
            | quiet _ _ next =>
                simp only [Monitor.step, next]
                exact before
            | joined _ next =>
                simp only [Monitor.step, next, Server.joinedState]
                exact forall_snoc _ _ _ before (.inl rfl)
        | channelInactive c =>
            simp only [Monitor.step, Server.call_inactive, Server.inactiveState]
            exact forall_snoc _ _ _ before (.inr rfl)
    | _ => exact before
  · simp [Monitor.start, Server.start]

theorem service_log_grows [FileSystem] (id : Ch → JString) (secure : Ch → Bool) (s : WebService Ch)
    (action : ServiceAction Ch) :
    s.pool.log <+: (s.step id secure action).pool.log := by
  cases action with
  | channelRead0 c msg => exact List.prefix_append _ _
  | proceed i files =>
      simp only [WebService.step]
      cases Pool.proceed_cases (s.env files) s.pool i with
      | idle same => rw [same]
      | taken _ task _ _ _ _ log =>
          rw [log]
          exact List.prefix_append _ _
  | _ => exact List.prefix_rfl

theorem console_log_grows [FileSystem] (id : Ch → JString) (secure : Ch → Bool) (c : Console Ch S)
    (actions : List (ConsoleAction Ch S)) :
    c.service.pool.log <+: (run (Console.step id secure) c actions).service.pool.log := by
  apply invariant_run (Console.step id secure) fun d => c.service.pool.log <+: d.service.pool.log
  · intro d action before
    cases action with
    | service action now fails => exact before.trans (service_log_grows id secure d.service action)
    | _ => exact before
  · exact List.prefix_rfl

omit [DecidableEq S] in
theorem quiet_sent [FileSystem] (id : Ch → JString) (secure : Ch → Bool) (s : WebService Ch) (action : ServiceAction Ch)
    (same : (s.step id secure action).server = s.server) (informed : Informed id (s.step id secure action))
    (publisher message : JString) (now then_ : LocalTime) (fails failing : S → Bool)
    (member : (.fileSent publisher message now fails : Happening Ch S) ∈ (news s (s.step id secure action)).map fun data =>
      .fileSent data.publisher data.message then_ failing) :
    .published ⟨.fileSent, publisher, message⟩ ∈ (s.step id secure action).pool.log := by
  obtain ⟨data, fresh, spelled⟩ := List.mem_map.mp member
  have published := quiet_news _ _ same data fresh
  have sent := published_sent id _ informed data published
  cases spelled
  rw [← sent]
  exact published

-- Only the requests' steps come to a FileSent happening.
theorem sent_happening [FileSystem] (id : Ch → JString) (secure : Ch → Bool) (c : Console Ch S) (action : ConsoleAction Ch S)
    (informed : Informed id (c.step id secure action).service) (publisher message : JString) (now : LocalTime) (fails : S → Bool)
    (meant : .fileSent publisher message now fails ∈ c.happenings id secure action) :
    .published ⟨.fileSent, publisher, message⟩ ∈ (c.step id secure action).service.pool.log := by
  cases action with
  | service other then_ failing =>
      have after : Informed id (c.service.step id secure other) := informed
      cases other with
      | channelRead0 ch msg => simp [happenings] at meant
      | channelInactive ch => simp [happenings] at meant
      | _ => exact quiet_sent id secure c.service _ rfl after publisher message now then_ fails failing meant
  | _ => simp [happenings] at meant

theorem dashboard_monitor (elements : JString → Nat) (id : Ch → JString) (d : Dashboard Ch S) (happenings : List (Happening Ch S)) :
    (run (Dashboard.step elements id) d (happenings.map .happening)).monitor = run (Monitor.step id) d.monitor happenings := by
  induction happenings generalizing d with
  | nil => rfl
  | cons happening rest ih => exact ih _

-- A page is told that a file has been sent only where a request has queued that
-- file for the agent before.
theorem sent_notices_are_true [FileSystem] (id : Ch → JString) (secure : Ch → Bool) (actions : List (ConsoleAction Ch S))
    (session : S) (text : JString) (received : text ∈ (run (Console.step id secure) Console.start actions).ws.inbox session)
    (reads : noticeOf .fileSent text ≠ none) :
    ∃ (data : MessageEventData) (now : LocalTime) (before after : List (Observation Ch)), text = data.notificationFormat now.text ∧
      (run (Console.step id secure) Console.start actions).service.pool.log = before ++ .published data :: after ∧
      SentBefore id (run (Console.step id secure) Console.start actions).service before data := by
  let happened := expand (Console.step id secure) (happenings id secure) Console.start actions
  have monitored := console_monitor id secure actions
  have dashboard : (run (Dashboard.step (fun _ => 0) id) (Dashboard.start : Dashboard Ch S) (happened.map .happening)).monitor =
      run (Monitor.step id) Monitor.start happened := dashboard_monitor (fun _ => 0) id Dashboard.start happened
  have inbox : text ∈ (run (Dashboard.step (fun _ => 0) id) Dashboard.start (happened.map .happening)).monitor.ws.inbox session := by
    rw [dashboard, ← monitored]
    exact received
  obtain ⟨happening, member, utters⟩ := inbox_has_sources _ id _ session text inbox
  rw [dashboard] at utters
  rcases utters with ⟨_, sessionId, _, _, rfl⟩ | ⟨data, now, published, rfl⟩
  · exact absurd (notice_of_debug .fileSent sessionId) reads
  rw [notice_of_notification, ne_eq, ite_eq_right_iff] at reads
  have sent : data.eventType = .fileSent := by simpa using reads
  rcases published with ⟨event, inside, rfl⟩ | ⟨publisher, message, then_, fails, ⟨rfl, rfl⟩ | ⟨_, rfl⟩⟩
  · exact absurd sent (by rcases registry_event_types id happened event inside with kind | kind <;> simp [kind])
  · obtain ⟨_, listed, same⟩ := List.mem_map.mp member
    cases same
    obtain ⟨earlier, action, later, rfl, meant⟩ := expand_source _ _ _ _ _ listed
    have informed := console_informed id secure (earlier ++ [action])
    rw [run_append] at informed
    have logged := sent_happening id secure _ action informed publisher message then_ fails meant
    have grows := console_log_grows id secure ((run (Console.step id secure) Console.start earlier).step id secure action) later
    rw [run_append, run_cons]
    obtain ⟨before, after, split⟩ := List.append_of_mem (grows.subset logged)
    refine ⟨_, now, before, after, rfl, split, ?_⟩
    have whole := console_informed id secure (earlier ++ action :: later)
    rw [run_append, run_cons] at whole
    exact whole.events before _ after split
  · cases sent

def servedActions : List (ConsoleAction Nat Nat) := sentActions.map fun action => .service action sampleTime fun _ => false

def toldActions : List (ConsoleAction Nat Nat) := .afterConnectionEstablished 0 (ofString "1") (fun _ => false) :: servedActions

open Unix

theorem sample_notice_is_true :
    ∃ (data : MessageEventData) (now : LocalTime) (before after : List (Observation Nat)),
      (⟨.fileSent, ofString "a(d53f5b8e)", ofString "f"⟩ : MessageEventData).notificationFormat sampleTime.text =
        data.notificationFormat now.text ∧
      (run (Console.step sampleId fun _ => true) (Console.start : Console Nat Nat) toldActions).service.pool.log =
        before ++ .published data :: after ∧
      SentBefore sampleId (run (Console.step sampleId fun _ => true) (Console.start : Console Nat Nat) toldActions).service before data :=
  sent_notices_are_true sampleId (fun _ => true) toldActions 0 _ (by decide +kernel) (by decide +kernel)

end Nenes
