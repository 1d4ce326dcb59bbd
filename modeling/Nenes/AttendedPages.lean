import Nenes.Console

set_option autoImplicit false

namespace Nenes

open ByteBuf Runs Console

variable {Ch S : Type} [DecidableEq Ch] [DecidableEq S]

def ofKind (kind : EventType) (events : List MessageEventData) : List MessageEventData :=
  events.filter fun data => data.eventType = kind

theorem of_kind_append (kind : EventType) (a b : List MessageEventData) : ofKind kind (a ++ b) = ofKind kind a ++ ofKind kind b :=
  List.filter_append a b

-- Lists that share no kind can change places.
theorem of_kind_swap (kind : EventType) (a b c d : List MessageEventData)
    (apart : ∀ data ∈ b, ∀ other ∈ c, data.eventType ≠ other.eventType) :
    ofKind kind ((a ++ b) ++ (c ++ d)) = ofKind kind ((a ++ c) ++ (b ++ d)) := by
  have alone : ofKind kind b = [] ∨ ofKind kind c = [] := by
    by_cases spoken : ofKind kind b = []
    · exact .inl spoken
    · obtain ⟨data, member⟩ := List.exists_mem_of_ne_nil _ spoken
      obtain ⟨inside, same⟩ := List.mem_filter.mp member
      refine .inr (List.filter_eq_nil_iff.mpr fun other elsewhere equal => apart data inside other elsewhere ?_)
      exact (of_decide_eq_true same).trans (of_decide_eq_true equal).symm
  simp only [of_kind_append]
  rcases alone with none | none <;> simp [none]

namespace Console

def created : ConsoleAction Ch S → Option MessageEventData
  | .created name _ _ => some (DirWatchService.fileIn name)
  | _ => none

-- The page stays open and takes what it is sent. Other sessions come and go
-- between the broadcasts.
def Attends (session : S) : ConsoleAction Ch S → Prop
  | .service _ _ fails => fails session = false
  | .created _ _ fails => fails session = false
  | .afterConnectionEstablished _ _ fails => fails session = false
  | .close other => other ≠ session
  | .afterConnectionClosed other => other ≠ session

instance (session : S) : ∀ action : ConsoleAction Ch S, Decidable (Attends session action)
  | .service _ _ fails => inferInstanceAs (Decidable (fails session = false))
  | .created _ _ fails => inferInstanceAs (Decidable (fails session = false))
  | .afterConnectionEstablished _ _ fails => inferInstanceAs (Decidable (fails session = false))
  | .close other => inferInstanceAs (Decidable (other ≠ session))
  | .afterConnectionClosed other => inferInstanceAs (Decidable (other ≠ session))

-- All that is published from one state of the service to another, with the files
-- that come into the directory meanwhile.
def publishedSince (before after : WebService Ch) (actions : List (ConsoleAction Ch S)) : List MessageEventData :=
  news before after ++ actions.filterMap created

end Console

structure Listens (session : S) (ws : WsHandler S) : Prop where
  listed : ws.sessionSet session = true
  open_ : ws.isOpen session = true

-- The page goes on listening, and what comes in between is these events' notices.
structure Hears (session : S) (ws next : WsHandler S) (events : List MessageEventData) : Prop where
  listens : Listens session next
  heard : ∃ texts, next.inbox session = ws.inbox session ++ texts ∧
    ∀ kind, texts.filterMap (noticeOf kind) = (ofKind kind events).map notificationBody

omit [DecidableEq S] in
theorem hears_nothing (session : S) (ws next : WsHandler S) (listens : Listens session next)
    (same : next.inbox session = ws.inbox session) : Hears session ws next [] :=
  ⟨listens, [], by simp [same], fun _ => rfl⟩

omit [DecidableEq S] in
theorem hears_trans (session : S) (ws next last : WsHandler S) (events more : List MessageEventData)
    (hears : Hears session ws next events) (further : Hears session next last more) : Hears session ws last (events ++ more) := by
  obtain ⟨_, texts, inbox, notices⟩ := hears
  obtain ⟨listens, others, later, others_notices⟩ := further
  refine ⟨listens, texts ++ others, by rw [later, inbox, List.append_assoc], fun kind => ?_⟩
  rw [List.filterMap_append, notices, others_notices, of_kind_append, List.map_append]

omit [DecidableEq S] in
theorem hears_kinds (session : S) (ws next : WsHandler S) (events others : List MessageEventData)
    (same : ∀ kind, ofKind kind events = ofKind kind others) (hears : Hears session ws next events) : Hears session ws next others := by
  obtain ⟨listens, texts, inbox, notices⟩ := hears
  exact ⟨listens, texts, inbox, fun kind => same kind ▸ notices kind⟩

omit [DecidableEq S] in
theorem sent_inbox (session : S) (ws : WsHandler S) (fails : S → Bool) (text : JString) (listens : Listens session ws)
    (kept : fails session = false) : (ws.sendMessage fails text).inbox session = ws.inbox session ++ [text] := by
  simp [WsHandler.sendMessage, listens.listed, listens.open_, kept]

omit [DecidableEq S] in
theorem hears_event (session : S) (ws : WsHandler S) (fails : S → Bool) (now : LocalTime) (data : MessageEventData)
    (listens : Listens session ws) (kept : fails session = false) :
    Hears session ws (ws.onApplicationEvent fails now data) [data] := by
  refine ⟨⟨listens.listed, listens.open_⟩, [data.notificationFormat now.text], sent_inbox session ws fails _ listens kept, ?_⟩
  intro kind
  by_cases same : data.eventType = kind
  · simp [notice_of_notification, ofKind, same]
  · simp [notice_of_notification, ofKind, same]

omit [DecidableEq S] in
theorem hears_events (session : S) (ws : WsHandler S) (fails : S → Bool) (now : LocalTime) (events : List MessageEventData)
    (listens : Listens session ws) (kept : fails session = false) :
    Hears session ws (events.foldl (fun ws data => ws.onApplicationEvent fails now data) ws) events := by
  induction events generalizing ws with
  | nil => exact hears_nothing session ws ws listens rfl
  | cons data rest ih =>
      have first := hears_event session ws fails now data listens kept
      exact hears_trans session _ _ _ [data] rest first (ih _ first.listens)

theorem hears_greeting (session other : S) (ws : WsHandler S) (fails : S → Bool) (sessionId : JString)
    (listens : Listens session ws) (kept : fails session = false) :
    Hears session ws (ws.afterConnectionEstablished fails sessionId other) [] := by
  have widened : Listens session { ws with
      sessionSet := Function.update ws.sessionSet other true, isOpen := Function.update ws.isOpen other true } := by
    constructor
    · by_cases same : session = other <;> simp [same, listens.listed]
    · by_cases same : session = other <;> simp [same, listens.open_]
  refine ⟨⟨widened.listed, widened.open_⟩, [WsHandler.debugText sessionId], sent_inbox session _ fails _ widened kept, ?_⟩
  intro kind
  simp [notice_of_debug, ofKind]

omit [DecidableEq Ch] [DecidableEq S] in
theorem published_since_still (s : WebService Ch) (actions : List (ConsoleAction Ch S)) :
    publishedSince s s actions = actions.filterMap created := by
  simp [publishedSince, news, Monitor.published]

theorem hears_step [FileSystem] (id : Ch → JString) (secure : Ch → Bool) (session : S) (c : Console Ch S)
    (action : ConsoleAction Ch S) (listens : Listens session c.ws) (attends : Attends session action) :
    Hears session c.ws (c.step id secure action).ws (publishedSince c.service (c.step id secure action).service [action]) := by
  cases action with
  | service action now fails =>
      simp only [publishedSince, List.filterMap_cons, created, List.filterMap_nil, List.append_nil]
      exact hears_events session c.ws fails now _ listens attends
  | created name now fails =>
      rw [Console.step, published_since_still]
      exact hears_event session c.ws fails now _ listens attends
  | afterConnectionEstablished other sessionId fails =>
      rw [Console.step, published_since_still]
      exact hears_greeting session other c.ws fails sessionId listens attends
  | close other =>
      rw [Console.step, published_since_still]
      refine hears_nothing session _ _ ⟨listens.listed, ?_⟩ rfl
      simpa [WsHandler.close, Function.update_of_ne (Ne.symm attends)] using listens.open_
  | afterConnectionClosed other =>
      rw [Console.step, published_since_still]
      refine hears_nothing session _ _ ⟨?_, listens.open_⟩ rfl
      simpa [WsHandler.afterConnectionClosed, Function.update_of_ne (Ne.symm attends)] using listens.listed

-- The handlers publish of two kinds, and the requests of a third.
structure Sorted (s : WebService Ch) : Prop where
  registry : ∀ event ∈ s.server.events, event.data.eventType = .connected ∨ event.data.eventType = .disconnected
  requests : ∀ data, .published data ∈ s.pool.log → data.eventType = .fileSent

structure Grows (s t : WebService Ch) : Prop where
  events : s.server.events <+: t.server.events
  log : s.pool.log <+: t.pool.log

def consoleAfter [FileSystem] (id : Ch → JString) (secure : Ch → Bool) (actions : List (ConsoleAction Ch S)) : Console Ch S :=
  run (Console.step id secure) Console.start actions

theorem console_after_snoc [FileSystem] (id : Ch → JString) (secure : Ch → Bool) (actions : List (ConsoleAction Ch S))
    (last : ConsoleAction Ch S) :
    consoleAfter id secure (actions ++ [last]) = (consoleAfter id secure actions).step id secure last := by
  simp only [consoleAfter, run_append, run_cons, run_nil]

theorem console_sorted [FileSystem] (id : Ch → JString) (secure : Ch → Bool) (actions : List (ConsoleAction Ch S)) :
    Sorted (consoleAfter id secure actions).service where
  registry := by
    have monitored : (consoleAfter id secure actions).service.server = _ :=
      congrArg Monitor.server (console_monitor id secure actions)
    rw [monitored]
    exact registry_event_types id _
  requests := published_sent id _ (console_informed id secure actions)

theorem console_step_grows [FileSystem] (id : Ch → JString) (secure : Ch → Bool) (c : Console Ch S)
    (action : ConsoleAction Ch S) :
    Grows c.service (c.step id secure action).service := by
  cases action with
  | service action now fails =>
      refine ⟨?_, service_log_grows id secure c.service action⟩
      cases action with
      | channelRead0 ch msg =>
          rw [Console.step, WebService.step, WebService.read]
          cases Server.call_read_cases id c.service.server ch msg with
          | quiet _ _ next => rw [next]
          | joined _ next =>
              rw [next]
              exact List.prefix_append _ _
      | channelInactive ch => exact List.prefix_append _ _
      | _ => exact List.prefix_rfl
  | _ => exact ⟨List.prefix_rfl, List.prefix_rfl⟩

theorem console_grows [FileSystem] (id : Ch → JString) (secure : Ch → Bool) (before after : List (ConsoleAction Ch S)) :
    Grows (consoleAfter id secure before).service (consoleAfter id secure (before ++ after)).service := by
  rw [consoleAfter, consoleAfter, run_append]
  apply invariant_run (Console.step id secure) fun d => Grows (run (Console.step id secure) Console.start before).service d.service
  · intro d action grows
    have next := console_step_grows id secure d action
    exact ⟨grows.events.trans next.events, grows.log.trans next.log⟩
  · exact ⟨List.prefix_rfl, List.prefix_rfl⟩

theorem drop_through {α : Type} (first second third : List α) (grows : first <+: second) (further : second <+: third) :
    third.drop first.length = second.drop first.length ++ third.drop second.length := by
  obtain ⟨more, rfl⟩ := grows
  obtain ⟨most, rfl⟩ := further
  simp [List.append_assoc]

omit [DecidableEq Ch] [DecidableEq S] in
theorem created_kind (actions : List (ConsoleAction Ch S)) : ∀ data ∈ actions.filterMap created, data.eventType = .fileIn := by
  intro data member
  obtain ⟨action, _, made⟩ := List.mem_filterMap.mp member
  cases action with
  | created name now fails =>
      cases made
      rfl
  | _ => cases made

omit [DecidableEq Ch] in
theorem published_kinds (before after : WebService Ch) (sorted : Sorted after) :
    ∀ data ∈ (Monitor.published before.server after.server).map MessageEvent.data,
      data.eventType = .connected ∨ data.eventType = .disconnected := by
  intro data member
  obtain ⟨event, inside, rfl⟩ := List.mem_map.mp member
  exact sorted.registry event (List.mem_of_mem_drop inside)

omit [DecidableEq Ch] in
theorem requested_kind (n : Nat) (s : WebService Ch) (sorted : Sorted s) :
    ∀ data ∈ (s.pool.log.drop n).filterMap Observation.event, data.eventType = .fileSent := by
  intro data member
  obtain ⟨observation, inside, event⟩ := List.mem_filterMap.mp member
  cases observation with
  | published other =>
      cases event
      exact sorted.requests _ (List.mem_of_mem_drop inside)
  | _ => cases event

-- The events of one kind come from one source, so they stay in order.
omit [DecidableEq Ch] [DecidableEq S] in
theorem published_since_trans (kind : EventType) (first second third : WebService Ch) (actions more : List (ConsoleAction Ch S))
    (grows : Grows first second) (further : Grows second third) (sorted : Sorted third) :
    ofKind kind (publishedSince first third (actions ++ more)) =
      ofKind kind (publishedSince first second actions ++ publishedSince second third more) := by
  have registry : Monitor.published first.server third.server =
      Monitor.published first.server second.server ++ Monitor.published second.server third.server :=
    drop_through _ _ _ grows.events further.events
  have requests := drop_through _ _ _ grows.log further.log
  have earlier : Sorted second :=
    ⟨fun event member => sorted.registry event (further.events.subset member),
      fun data member => sorted.requests data (further.log.subset member)⟩
  have handlers := published_kinds second third sorted
  have sent := requested_kind first.pool.log.length second earlier
  have later := requested_kind second.pool.log.length third sorted
  have files := created_kind actions
  simp only [publishedSince, news, registry, requests, List.map_append, List.filterMap_append]
  rw [of_kind_append, of_kind_swap kind _ _ _ _ ?_, ← of_kind_append, of_kind_swap kind _ _ _ _ ?_]
  · intro data member other elsewhere same
    rw [files other elsewhere] at same
    rcases List.mem_append.mp member with inside | inside
    · rcases handlers data inside with kind | kind <;> simp [kind] at same
    · simp [later data inside] at same
  · intro data member other elsewhere same
    rw [sent other elsewhere] at same
    rcases handlers data member with kind | kind <;> simp [kind] at same

theorem hears_run [FileSystem] (id : Ch → JString) (secure : Ch → Bool) (session : S) (before after : List (ConsoleAction Ch S))
    (listens : Listens session (consoleAfter id secure before).ws) (attends : ∀ action ∈ after, Attends session action) :
    Hears session (consoleAfter id secure before).ws (consoleAfter id secure (before ++ after)).ws
      (publishedSince (consoleAfter id secure before).service (consoleAfter id secure (before ++ after)).service after) := by
  induction after using List.reverseRecOn with
  | nil =>
      rw [List.append_nil, published_since_still]
      exact hears_nothing session _ _ listens rfl
  | append_singleton earlier last ih =>
      obtain ⟨soFar, now⟩ := List.forall_mem_append.mp attends
      have hears := ih soFar
      have sorted := console_sorted id secure (before ++ (earlier ++ [last]))
      rw [← List.append_assoc, console_after_snoc] at sorted ⊢
      have next := hears_step id secure session _ last hears.listens (now last (by simp))
      refine hears_kinds session _ _ _ _ (fun kind => ?_) (hears_trans session _ _ _ _ _ hears next)
      exact (published_since_trans kind _ _ _ earlier [last] (console_grows id secure before earlier)
        (console_step_grows id secure _ last) sorted).symm

theorem greeted_page_hears [FileSystem] (id : Ch → JString) (secure : Ch → Bool) (session : S) (sessionId : JString)
    (fails : S → Bool) (before after : List (ConsoleAction Ch S))
    (attends : ∀ action ∈ .afterConnectionEstablished session sessionId fails :: after, Attends session action) :
    ∃ ws : WsHandler S, ws.inbox session = (consoleAfter id secure before).ws.inbox session ++ [WsHandler.debugText sessionId] ∧
      Hears session ws (consoleAfter id secure (before ++ .afterConnectionEstablished session sessionId fails :: after)).ws
        (publishedSince (consoleAfter id secure before).service
          (consoleAfter id secure (before ++ .afterConnectionEstablished session sessionId fails :: after)).service after) := by
  obtain ⟨kept, later⟩ := List.forall_mem_cons.mp attends
  have widened : Listens session { (consoleAfter id secure before).ws with
      sessionSet := Function.update (consoleAfter id secure before).ws.sessionSet session true
      isOpen := Function.update (consoleAfter id secure before).ws.isOpen session true } := ⟨by simp, by simp⟩
  have greeted := sent_inbox session _ fails (WsHandler.debugText sessionId) widened kept
  have hears := hears_run id secure session (before ++ [.afterConnectionEstablished session sessionId fails]) after
  simp only [console_after_snoc, List.append_assoc, List.singleton_append] at hears
  exact ⟨_, greeted, hears ⟨widened.listed, widened.open_⟩ later⟩

-- A page that stays open and takes what it is sent: after its greeting its texts
-- are, for each kind, the notices of all events of that kind since, in order.
theorem attended_page_told_exactly [FileSystem] (id : Ch → JString) (secure : Ch → Bool) (session : S) (sessionId : JString)
    (fails : S → Bool) (before after : List (ConsoleAction Ch S))
    (attends : ∀ action ∈ .afterConnectionEstablished session sessionId fails :: after, Attends session action) :
    ∃ texts, (consoleAfter id secure (before ++ .afterConnectionEstablished session sessionId fails :: after)).ws.inbox session =
        (consoleAfter id secure before).ws.inbox session ++ WsHandler.debugText sessionId :: texts ∧
      ∀ kind, texts.filterMap (noticeOf kind) = (ofKind kind (publishedSince (consoleAfter id secure before).service
        (consoleAfter id secure (before ++ .afterConnectionEstablished session sessionId fails :: after)).service
        after)).map notificationBody := by
  obtain ⟨ws, greeted, hears⟩ := greeted_page_hears id secure session sessionId fails before after attends
  obtain ⟨_, texts, inbox, notices⟩ := hears
  exact ⟨texts, by rw [inbox, greeted, List.append_assoc, List.singleton_append], notices⟩

open Unix

theorem told_page_told_exactly :
    ∃ texts, (consoleAfter sampleId (fun _ => true)
          ([] ++ .afterConnectionEstablished 0 (ofString "1") (fun _ => false) :: servedActions)).ws.inbox 0 =
        (consoleAfter sampleId (fun _ => true) ([] : List (ConsoleAction Nat Nat))).ws.inbox 0 ++ WsHandler.debugText (ofString "1") :: texts ∧
      ∀ kind, texts.filterMap (noticeOf kind) = (ofKind kind (publishedSince (consoleAfter sampleId (fun _ => true) ([] : List (ConsoleAction Nat Nat))).service
        (consoleAfter sampleId (fun _ => true)
          ([] ++ .afterConnectionEstablished 0 (ofString "1") (fun _ => false) :: servedActions)).service
        servedActions)).map notificationBody :=
  attended_page_told_exactly sampleId (fun _ => true) 0 (ofString "1") (fun _ => false) [] servedActions (by decide +kernel)

omit [DecidableEq Ch] in
theorem no_requests_no_events [FileSystem] (id : Ch → JString) (s : WebService Ch) (informed : Informed id s)
    (none : s.requests = []) :
    s.announced = [] := by
  refine List.filterMap_eq_nil_iff.mpr fun observation member => ?_
  cases observation with
  | published data =>
      obtain ⟨before, after, split⟩ := List.append_of_mem member
      obtain ⟨body, _, request, numbered, _⟩ := informed.events before _ after split
      simp [none] at numbered
  | _ => rfl

omit [DecidableEq Ch] [DecidableEq S] in
theorem requested_since (first last : WebService Ch) (actions : List (ConsoleAction Ch S)) (grows : Grows first last)
    (sorted : Sorted last) (none : first.announced = []) : ofKind .fileSent (publishedSince first last actions) = last.announced := by
  have handlers : ofKind .fileSent ((Monitor.published first.server last.server).map MessageEvent.data) = [] := by
    refine List.filter_eq_nil_iff.mpr fun data member => ?_
    rcases published_kinds first last sorted data member with kind | kind <;> simp [kind]
  have files : ofKind .fileSent (actions.filterMap created) = [] :=
    List.filter_eq_nil_iff.mpr fun data member => by simp [created_kind actions data member]
  have requests : ofKind .fileSent ((last.pool.log.drop first.pool.log.length).filterMap Observation.event) =
      (last.pool.log.drop first.pool.log.length).filterMap Observation.event :=
    List.filter_eq_self.mpr fun data member => by simp [requested_kind _ last sorted data member]
  rw [publishedSince, news, of_kind_append, of_kind_append, handlers, files, requests, List.nil_append, List.append_nil]
  obtain ⟨more, log⟩ := grows.log
  rw [WebService.announced] at none ⊢
  rw [← log, List.drop_left, List.filterMap_append, none, List.nil_append]

-- The notices match the contents that have been written, one by one.
def WebService.Noticed [FileSystem] (id : Ch → JString) (s : WebService Ch) (notices : List JString) : Prop :=
  Multiset.Rel (fun body notice => ∃ data, notice = notificationBody data ∧ Announces (learned id s.disks) s.requests body data)
    s.fileBodies notices

-- From the disk to the page: a page that is there before the first request has,
-- when all is done, a notice of its own for each content written to an agent.
theorem sent_files_reach_page [FileSystem] (id : Ch → JString) (secure : Ch → Bool) (session : S) (sessionId : JString)
    (fails : S → Bool) (before after : List (ConsoleAction Ch S))
    (attends : ∀ action ∈ .afterConnectionEstablished session sessionId fails :: after, Attends session action)
    (first : (consoleAfter id secure before).service.requests = [])
    (finished : (consoleAfter id secure (before ++ .afterConnectionEstablished session sessionId fails :: after)).service.pool.Finished) :
    ∃ texts, (consoleAfter id secure (before ++ .afterConnectionEstablished session sessionId fails :: after)).ws.inbox session =
        (consoleAfter id secure before).ws.inbox session ++ WsHandler.debugText sessionId :: texts ∧
      (consoleAfter id secure (before ++ .afterConnectionEstablished session sessionId fails :: after)).service.Noticed id
        (texts.filterMap (noticeOf .fileSent)) := by
  obtain ⟨ws, greeted, hears⟩ := greeted_page_hears id secure session sessionId fails before after attends
  obtain ⟨_, texts, inbox, notices⟩ := hears
  refine ⟨texts, by rw [inbox, greeted, List.append_assoc, List.singleton_append], ?_⟩
  have none := no_requests_no_events id (consoleAfter id secure before).service (console_informed id secure before) first
  have informed : Informed id (consoleAfter id secure (before ++ .afterConnectionEstablished session sessionId fails :: after)).service :=
    console_informed id secure _
  have matched := informed.matched
  rw [nothing_due _ finished, Multiset.coe_nil, add_zero] at matched
  rw [WebService.Noticed, notices, requested_since _ _ after (console_grows id secure before _) (console_sorted id secure _) none,
    ← Multiset.map_coe, Multiset.rel_map_right]
  exact matched.mono fun body _ data _ announces => ⟨data, rfl, announces⟩

theorem sample_file_reaches_page :
    ∃ texts, (consoleAfter sampleId (fun _ => true)
          ([] ++ .afterConnectionEstablished 0 (ofString "1") (fun _ => false) :: servedActions)).ws.inbox 0 =
        (consoleAfter sampleId (fun _ => true) ([] : List (ConsoleAction Nat Nat))).ws.inbox 0 ++
          WsHandler.debugText (ofString "1") :: texts ∧
      (consoleAfter sampleId (fun _ => true)
        ([] ++ .afterConnectionEstablished (0 : Nat) (ofString "1") (fun _ => false) :: servedActions)).service.Noticed sampleId
          (texts.filterMap (noticeOf .fileSent)) :=
  sent_files_reach_page sampleId (fun _ => true) 0 (ofString "1") (fun _ => false) [] servedActions (by decide +kernel) rfl
    (by decide +kernel)

end Nenes
