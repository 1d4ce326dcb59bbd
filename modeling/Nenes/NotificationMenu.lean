import Nenes.NotificationPage

set_option autoImplicit false

namespace Nenes

open ByteBuf OperationServerHandler Server Runs

inductive NotiIcon where
  | notificationsActive
  | notificationsNone
deriving DecidableEq, Repr

-- What the script of w.jsp works on. hidden is the badge after hide(); an empty
-- badge is not displayed either.
structure NotificationMenu where
  isOpen : Bool
  icon : NotiIcon
  items : List JString
  notiCount : Option Nat
  hidden : Bool
deriving DecidableEq, Repr

-- toggle is a click on the button, clearMenus one elsewhere.
inductive MenuAction where
  | onMessage (text : JString)
  | toggle
  | clearMenus
deriving DecidableEq, Repr

namespace NotificationMenu

def load : NotificationMenu := ⟨false, .notificationsNone, [], none, false⟩

def badgeVisible (menu : NotificationMenu) : Bool := menu.notiCount.isSome && !menu.hidden

-- The browser parses each appended text by itself: elements is how many elements
-- it makes of one.
def childElementCount (elements : JString → Nat) : List JString → Nat
  | [] => 0
  | item :: rest => elements item + childElementCount elements rest

theorem child_element_count_append (elements : JString → Nat) (a b : List JString) :
    childElementCount elements (a ++ b) = childElementCount elements a + childElementCount elements b := by
  induction a with
  | nil => exact (Nat.zero_add _).symm
  | cons item rest ih => rw [List.cons_append, childElementCount, childElementCount, ih, Nat.add_assoc]

-- This is append for a text that closes no tag and opens none. Any other is parsed
-- with the rest of the menu, and a script in it runs; runs with such a text are no
-- runs of a page.
def informEvent (elements : JString → Nat) (menu : NotificationMenu) (message : JString) : NotificationMenu :=
  { menu with
    icon := .notificationsActive
    items := menu.items ++ [Nenes.informEvent message]
    notiCount := some (childElementCount elements (menu.items ++ [Nenes.informEvent message]))
    hidden := false }

def showDropdown (menu : NotificationMenu) : NotificationMenu :=
  { menu with isOpen := true, icon := .notificationsNone, hidden := true }

def hideDropdown (menu : NotificationMenu) : NotificationMenu := { menu with isOpen := false, items := [] }

-- Dropdown.prototype.toggle hides an open menu through clearMenus.
def step (elements : JString → Nat) (menu : NotificationMenu) : MenuAction → NotificationMenu
  | .onMessage text => menu.informEvent elements text
  | .toggle => if menu.isOpen then menu.hideDropdown else menu.showDropdown
  | .clearMenus => if menu.isOpen then menu.hideDropdown else menu

-- A closed menu with something in it has its badge out, and the badge counts
-- what is there. Only one whose menu has been emptied since counts wrong.
structure Announces (elements : JString → Nat) (menu : NotificationMenu) : Prop where
  icon : menu.icon = .notificationsActive ↔ menu.badgeVisible = true
  counted : menu.badgeVisible = true → menu.items ≠ [] → menu.notiCount = some (childElementCount elements menu.items)
  positive : ∀ count, menu.notiCount = some count → 0 < count
  opened : menu.isOpen = true → menu.badgeVisible = true → menu.items ≠ []
  closed : menu.isOpen = false → menu.items ≠ [] → menu.badgeVisible = true

theorem announces_load (elements : JString → Nat) : Announces elements load where
  icon := by decide
  counted := by simp [load]
  positive := by simp [load]
  opened := by simp [load]
  closed := by simp [load]

theorem announces_inform (elements : JString → Nat) (positive : ∀ text, 0 < elements (Nenes.informEvent text))
    (menu : NotificationMenu) (message : JString) : Announces elements (menu.informEvent elements message) where
  icon := by simp [informEvent, badgeVisible]
  counted := fun _ _ => rfl
  positive := by
    intro count shown
    obtain rfl := Option.some.inj shown
    rw [child_element_count_append]
    exact Nat.add_pos_right _ (positive message)
  opened := by simp [informEvent]
  closed := by simp [informEvent, badgeVisible]

theorem announces_show (elements : JString → Nat) (menu : NotificationMenu) (announces : Announces elements menu) :
    Announces elements menu.showDropdown where
  icon := by simp [showDropdown, badgeVisible]
  counted := by simp [showDropdown, badgeVisible]
  positive := announces.positive
  opened := by simp [showDropdown, badgeVisible]
  closed := by simp [showDropdown]

theorem announces_hide (elements : JString → Nat) (menu : NotificationMenu) (announces : Announces elements menu) :
    Announces elements menu.hideDropdown where
  icon := announces.icon
  counted := by simp [hideDropdown]
  positive := announces.positive
  opened := by simp [hideDropdown]
  closed := by simp [hideDropdown]

theorem announces_step (elements : JString → Nat) (positive : ∀ text, 0 < elements (Nenes.informEvent text))
    (menu : NotificationMenu) (action : MenuAction) (announces : Announces elements menu) :
    Announces elements (menu.step elements action) := by
  cases action with
  | onMessage text => exact announces_inform elements positive menu text
  | toggle =>
      rw [step]
      split
      · exact announces_hide elements menu announces
      · exact announces_show elements menu announces
  | clearMenus =>
      rw [step]
      split
      · exact announces_hide elements menu announces
      · exact announces

theorem badge_wrong_iff_emptied (elements : JString → Nat) (menu : NotificationMenu) (announces : Announces elements menu)
    (visible : menu.badgeVisible = true) :
    menu.notiCount = some (childElementCount elements menu.items) ↔ menu.items ≠ [] := by
  refine ⟨fun count empty => ?_, announces.counted visible⟩
  rw [empty] at count
  exact absurd (announces.positive _ count) (by simp [childElementCount])

end NotificationMenu

variable {Ch S : Type} [DecidableEq Ch] [DecidableEq S]

-- The monitored server with a page for each session. taken is how many of its
-- texts a page has had.
structure Dashboard (Ch S : Type) where
  monitor : Monitor Ch S
  taken : S → Nat
  menu : S → NotificationMenu

inductive DashboardAction (Ch S : Type) where
  | happening (happening : Happening Ch S)
  | onMessage (session : S)
  | toggle (session : S)
  | clearMenus (session : S)

namespace Dashboard

def start : Dashboard Ch S := ⟨Monitor.start, fun _ => 0, fun _ => .load⟩

def act (elements : JString → Nat) (d : Dashboard Ch S) (session : S) (action : MenuAction) : Dashboard Ch S :=
  { d with menu := Function.update d.menu session ((d.menu session).step elements action) }

-- A websocket keeps the order of its texts.
def step (elements : JString → Nat) (id : Ch → JString) (d : Dashboard Ch S) : DashboardAction Ch S → Dashboard Ch S
  | .happening happening => { d with monitor := d.monitor.step id happening }
  | .onMessage session =>
      match (d.monitor.ws.inbox session)[d.taken session]? with
      | none => d
      | some text =>
          { d.act elements session (.onMessage text) with taken := Function.update d.taken session (d.taken session + 1) }
  | .toggle session => d.act elements session .toggle
  | .clearMenus session => d.act elements session .clearMenus

end Dashboard

-- The event is in the registry's log, or comes with the happening.
def Published (events : List (MessageEvent Ch)) (happening : Happening Ch S) (data : MessageEventData) : Prop :=
  (∃ event ∈ events, event.data = data) ∨
    ∃ publisher message now fails, (happening = .fileSent publisher message now fails ∧ data = ⟨.fileSent, publisher, message⟩) ∨
      (happening = .fileIn publisher message now fails ∧ data = ⟨.fileIn, publisher, message⟩)

def Utters (events : List (MessageEvent Ch)) (happening : Happening Ch S) (text : JString) : Prop :=
  (∃ session sessionId fails, happening = .afterConnectionEstablished session sessionId fails ∧
      text = WsHandler.debugText sessionId) ∨
    ∃ (data : MessageEventData) (now : LocalTime), Published events happening data ∧ text = data.notificationFormat now.text

-- A happening's texts go to the end of the inboxes, and all of them say
-- something that has happened.
structure Speaks (id : Ch → JString) (m : Monitor Ch S) (happening : Happening Ch S) (session : S) : Prop where
  events : m.server.events <+: (m.step id happening).server.events
  inbox : ∃ news, (m.step id happening).ws.inbox session = m.ws.inbox session ++ news ∧
    ∀ text ∈ news, Utters (m.step id happening).server.events happening text

omit [DecidableEq Ch] [DecidableEq S] in
theorem send_message_inbox (events : List (MessageEvent Ch)) (happening : Happening Ch S) (ws : WsHandler S) (fails : S → Bool)
    (message : JString) (session : S) (utters : Utters events happening message) :
    ∃ news, (ws.sendMessage fails message).inbox session = ws.inbox session ++ news ∧
      ∀ text ∈ news, Utters events happening text := by
  simp only [WsHandler.sendMessage]
  split
  · exact ⟨[message], rfl, by simpa using utters⟩
  · exact ⟨[], (List.append_nil _).symm, by simp⟩

theorem monitor_speaks (id : Ch → JString) (m : Monitor Ch S) (happening : Happening Ch S) (session : S) :
    Speaks id m happening session := by
  cases happening with
  | call action now fails =>
      cases action with
      | channelRead0 c msg =>
          cases call_read_cases id m.server c msg with
          | quiet _ _ next =>
              refine ⟨?_, [], ?_, by simp⟩
              · simp only [Monitor.step, next]
                exact List.prefix_rfl
              · simp [Monitor.step, next, Monitor.published]
          | joined _ next =>
              refine ⟨?_, ?_⟩
              · simp only [Monitor.step, next, joinedState]
                exact List.prefix_append _ _
              · simp only [Monitor.step, next, Monitor.published, joinedState, List.drop_left, List.foldl_cons, List.foldl_nil]
                apply send_message_inbox
                exact .inr ⟨_, now, .inl ⟨_, List.mem_append_right _ (List.mem_singleton.mpr rfl), rfl⟩, rfl⟩
      | channelInactive c =>
          refine ⟨?_, ?_⟩
          · simp only [Monitor.step, call_inactive, inactiveState]
            exact List.prefix_append _ _
          · simp only [Monitor.step, call_inactive, Monitor.published, inactiveState, List.drop_left, List.foldl_cons,
              List.foldl_nil]
            apply send_message_inbox
            exact .inr ⟨_, now, .inl ⟨_, List.mem_append_right _ (List.mem_singleton.mpr rfl), rfl⟩, rfl⟩
  | fileSent publisher message now fails =>
      refine ⟨List.prefix_rfl, send_message_inbox _ _ m.ws fails _ session ?_⟩
      exact .inr ⟨_, now, .inr ⟨publisher, message, now, fails, .inl ⟨rfl, rfl⟩⟩, rfl⟩
  | fileIn publisher message now fails =>
      refine ⟨List.prefix_rfl, send_message_inbox _ _ m.ws fails _ session ?_⟩
      exact .inr ⟨_, now, .inr ⟨publisher, message, now, fails, .inr ⟨rfl, rfl⟩⟩, rfl⟩
  | afterConnectionEstablished other sessionId fails =>
      refine ⟨List.prefix_rfl, ?_⟩
      exact send_message_inbox _ _ { m.ws with
        sessionSet := Function.update m.ws.sessionSet other true, isOpen := Function.update m.ws.isOpen other true } fails _
        session (.inl ⟨other, sessionId, fails, rfl, rfl⟩)
  | close other => exact ⟨List.prefix_rfl, [], (List.append_nil _).symm, by simp⟩
  | afterConnectionClosed other => exact ⟨List.prefix_rfl, [], (List.append_nil _).symm, by simp⟩

namespace Dashboard

-- The menu of the session is open, and the click closes it.
def dismisses (session : S) (d : Dashboard Ch S) : DashboardAction Ch S → Bool
  | .toggle other => other = session && (d.menu session).isOpen
  | .clearMenus other => other = session && (d.menu session).isOpen
  | _ => false

def dismissedAfter (elements : JString → Nat) (id : Ch → JString) (session : S) :
    Dashboard Ch S → Nat → List (DashboardAction Ch S) → Nat
  | _, dismissed, [] => dismissed
  | d, dismissed, action :: rest =>
      dismissedAfter elements id session (d.step elements id action)
        (if d.dismisses session action then d.taken session else dismissed) rest

end Dashboard

-- Between the handler and the menu no text is lost, doubled or overtaken: the
-- menu has what its page has had since it was last closed.
structure ShowsSent (elements : JString → Nat) (d : Dashboard Ch S) (session : S) (dismissed : Nat) : Prop where
  dropped : dismissed ≤ d.taken session
  taken : d.taken session ≤ (d.monitor.ws.inbox session).length
  items : (d.menu session).items = (((d.monitor.ws.inbox session).take (d.taken session)).drop dismissed).map informEvent
  announces : (d.menu session).Announces elements

omit [DecidableEq Ch] [DecidableEq S] in
theorem shows_sent_start (elements : JString → Nat) (session : S) :
    ShowsSent elements (Dashboard.start : Dashboard Ch S) session 0 :=
  ⟨Nat.le_refl _, Nat.zero_le _, rfl, NotificationMenu.announces_load elements⟩

theorem click_items (elements : JString → Nat) (menu : NotificationMenu) (action : MenuAction)
    (click : ∀ text, action ≠ .onMessage text) :
    (menu.step elements action).items = if menu.isOpen then [] else menu.items := by
  cases action with
  | onMessage text => exact absurd rfl (click text)
  | toggle =>
      rw [NotificationMenu.step]
      cases open_ : menu.isOpen with
      | true => rfl
      | false => rfl
  | clearMenus =>
      rw [NotificationMenu.step]
      cases open_ : menu.isOpen with
      | true => rfl
      | false => rfl

omit [DecidableEq Ch] in
theorem shows_sent_click (elements : JString → Nat) (positive : ∀ text, 0 < elements (informEvent text)) (d : Dashboard Ch S)
    (other session : S) (dismissed : Nat) (action : MenuAction) (click : ∀ text, action ≠ .onMessage text)
    (shows : ShowsSent elements d session dismissed) :
    ShowsSent elements (d.act elements other action) session
      (if (other = session && (d.menu session).isOpen) = true then d.taken session else dismissed) := by
  by_cases same : other = session
  · subst same
    refine ⟨?_, shows.taken, ?_, ?_⟩
    · split
      · exact Nat.le_refl _
      · exact shows.dropped
    · simp only [Dashboard.act, Function.update_self, click_items elements _ action click]
      cases open_ : (d.menu other).isOpen with
      | true => simp
      | false => simpa using shows.items
    · simp only [Dashboard.act, Function.update_self]
      exact NotificationMenu.announces_step elements positive _ action shows.announces
  · simp only [same, decide_false, Bool.false_and, Bool.false_eq_true, if_false]
    refine ⟨shows.dropped, shows.taken, ?_, ?_⟩
    all_goals simp only [Dashboard.act, Function.update_of_ne (Ne.symm same)]
    · exact shows.items
    · exact shows.announces

omit [DecidableEq Ch] in
theorem shows_sent_message (elements : JString → Nat) (positive : ∀ text, 0 < elements (informEvent text)) (d : Dashboard Ch S)
    (session : S) (dismissed : Nat) (text : JString) (next : (d.monitor.ws.inbox session)[d.taken session]? = some text)
    (shows : ShowsSent elements d session dismissed) :
    ShowsSent elements
      { d.act elements session (.onMessage text) with taken := Function.update d.taken session (d.taken session + 1) } session
      dismissed := by
  obtain ⟨inside, found⟩ := List.getElem?_eq_some_iff.mp next
  refine ⟨?_, ?_, ?_, ?_⟩
  all_goals simp only [Dashboard.act, Function.update_self]
  · exact Nat.le_succ_of_le shows.dropped
  · exact inside
  · have shown : dismissed ≤ ((d.monitor.ws.inbox session).take (d.taken session)).length := by
      rw [List.length_take]
      exact Nat.le_min.mpr ⟨shows.dropped, Nat.le_trans shows.dropped shows.taken⟩
    rw [List.take_succ_eq_append_getElem inside, found, List.drop_append_of_le_length shown, List.map_append, ← shows.items]
    rfl
  · exact NotificationMenu.announces_inform elements positive (d.menu session) text

theorem shows_sent_step (elements : JString → Nat) (positive : ∀ text, 0 < elements (informEvent text)) (id : Ch → JString)
    (session : S) (d : Dashboard Ch S) (dismissed : Nat) (action : DashboardAction Ch S)
    (shows : ShowsSent elements d session dismissed) :
    ShowsSent elements (d.step elements id action) session
      (if d.dismisses session action then d.taken session else dismissed) := by
  cases action with
  | happening happening =>
      obtain ⟨news, inbox, _⟩ := (monitor_speaks id d.monitor happening session).inbox
      refine ⟨shows.dropped, ?_, ?_, shows.announces⟩
      all_goals simp only [Dashboard.step, inbox]
      · rw [List.length_append]
        exact Nat.le_add_right_of_le shows.taken
      · rw [List.take_append_of_le_length shows.taken]
        exact shows.items
  | onMessage other =>
      rw [Dashboard.step]
      split
      · exact shows
      · rename_i text next
        by_cases same : session = other
        · subst same
          exact shows_sent_message elements positive d session dismissed text next shows
        · refine ⟨?_, ?_, ?_, ?_⟩
          all_goals simp only [Dashboard.act, Function.update_of_ne same]
          · exact shows.dropped
          · exact shows.taken
          · exact shows.items
          · exact shows.announces
  | toggle other => exact shows_sent_click elements positive d other session dismissed .toggle (by simp) shows
  | clearMenus other => exact shows_sent_click elements positive d other session dismissed .clearMenus (by simp) shows

theorem run_shows_sent (elements : JString → Nat) (positive : ∀ text, 0 < elements (informEvent text)) (id : Ch → JString)
    (session : S) (actions : List (DashboardAction Ch S)) (d : Dashboard Ch S) (dismissed : Nat)
    (shows : ShowsSent elements d session dismissed) :
    ShowsSent elements (run (Dashboard.step elements id) d actions) session
      (d.dismissedAfter elements id session dismissed actions) := by
  induction actions generalizing d dismissed with
  | nil => exact shows
  | cons action rest ih => exact ih _ _ (shows_sent_step elements positive id session d dismissed action shows)

-- An li and an a, each opened and closed: the tags of an element without a text.
def liTags (html : JString) : Nat := html.count 60 / 4

theorem li_tags_count (text : JString) : liTags (informEvent text) = (text.count 60 + 4) / 4 := by
  have front : (ofString "<li role=\"presentation\"><a role=\"menuitem\" tabindex=\"-1\" href=\"#\">").count 60 = 2 := by
    decide +kernel
  have back : (ofString "</a></li>").count 60 = 2 := by decide +kernel
  rw [liTags, informEvent, List.count_append, List.count_append, front, back]
  congr 1
  omega

theorem li_tags_positive (text : JString) : 0 < liTags (informEvent text) := by
  rw [li_tags_count]
  omega

theorem li_tags_plain (text : JString) (plain : NoMarkup text) : liTags (informEvent text) = 1 := by
  have none : text.count 60 = 0 := List.count_eq_zero.mpr fun member => absurd (plain 60 member) (by decide)
  rw [li_tags_count, none]

-- The page has two texts, is opened and closed, and gets a third.
def menuActions : List (DashboardAction Nat Nat) :=
  [.happening (.afterConnectionEstablished 0 (ofString "0") fun _ => false),
    .happening (.call (.channelRead0 0 chunkA) sampleTime fun _ => false), .onMessage 0, .onMessage 0, .toggle 0, .toggle 0,
    .happening (.call (.channelInactive 0) sampleTime fun _ => false), .onMessage 0]

theorem plain_count (elements : JString → Nat) (one : ∀ text, NoMarkup text → elements (informEvent text) = 1)
    (texts : List JString) (plain : ∀ text ∈ texts, NoMarkup text) :
    NotificationMenu.childElementCount elements (texts.map informEvent) = texts.length := by
  induction texts with
  | nil => rfl
  | cons text rest ih =>
      obtain ⟨first, later⟩ := List.forall_mem_cons.mp plain
      rw [List.map_cons, NotificationMenu.childElementCount, one text first, ih later, List.length_cons, Nat.add_comm]

-- Every text of the page is one entry of the menu.
structure ListsSent (elements : JString → Nat) (d : Dashboard Ch S) (session : S) (dismissed : Nat) : Prop
    extends ShowsSent elements d session dismissed where
  each : NotificationMenu.childElementCount elements (d.menu session).items = (d.menu session).items.length

theorem menus_show_what_was_sent (elements : JString → Nat) (positive : ∀ text, 0 < elements (informEvent text))
    (one : ∀ text, NoMarkup text → elements (informEvent text) = 1) (id : Ch → JString)
    (actions : List (DashboardAction Ch S)) (session : S)
    (plain : ∀ text ∈ (run (Dashboard.step elements id) Dashboard.start actions).monitor.ws.inbox session, NoMarkup text) :
    ListsSent elements (run (Dashboard.step elements id) Dashboard.start actions) session
      (Dashboard.start.dismissedAfter elements id session 0 actions) := by
  have shows := run_shows_sent elements positive id session actions Dashboard.start 0 (shows_sent_start elements session)
  refine ⟨shows, ?_⟩
  rw [shows.items, List.length_map]
  exact plain_count elements one _ fun text member => plain text (List.mem_of_mem_take (List.mem_of_mem_drop member))

theorem menu_texts_plain : ∀ text ∈ (run (Dashboard.step liTags sampleId) Dashboard.start menuActions).monitor.ws.inbox 0,
    NoMarkup text := by
  intro text member
  rw [← markup_nil_iff]
  revert text
  decide +kernel

theorem closed_menu_shows_last :
    ListsSent liTags (run (Dashboard.step liTags sampleId) Dashboard.start menuActions) 0
      (Dashboard.start.dismissedAfter liTags sampleId 0 0 menuActions) :=
  menus_show_what_was_sent liTags li_tags_positive li_tags_plain sampleId menuActions 0 menu_texts_plain

theorem badge_counts_undismissed (elements : JString → Nat) (positive : ∀ text, 0 < elements (informEvent text))
    (one : ∀ text, NoMarkup text → elements (informEvent text) = 1) (id : Ch → JString)
    (actions : List (DashboardAction Ch S)) (session : S)
    (plain : ∀ text ∈ (run (Dashboard.step elements id) Dashboard.start actions).monitor.ws.inbox session, NoMarkup text)
    (visible : ((run (Dashboard.step elements id) Dashboard.start actions).menu session).badgeVisible = true) :
    ((run (Dashboard.step elements id) Dashboard.start actions).menu session).notiCount =
        some ((run (Dashboard.step elements id) Dashboard.start actions).taken session -
          Dashboard.start.dismissedAfter elements id session 0 actions) ↔
      Dashboard.start.dismissedAfter elements id session 0 actions <
        (run (Dashboard.step elements id) Dashboard.start actions).taken session := by
  have shows := run_shows_sent elements positive id session actions Dashboard.start 0 (shows_sent_start elements session)
  have counts := NotificationMenu.badge_wrong_iff_emptied elements _ shows.announces visible
  have shown := plain_count elements one
    (((run (Dashboard.step elements id) Dashboard.start actions).monitor.ws.inbox session).take
      ((run (Dashboard.step elements id) Dashboard.start actions).taken session) |>.drop
        (Dashboard.start.dismissedAfter elements id session 0 actions))
    fun text member => plain text (List.mem_of_mem_take (List.mem_of_mem_drop member))
  rw [← shows.items, List.length_drop, List.length_take, Nat.min_eq_left shows.taken] at shown
  rw [shown] at counts
  rw [counts, ← List.length_pos_iff, shows.items, List.length_map, List.length_drop, List.length_take,
    Nat.min_eq_left shows.taken]
  omega

theorem sample_badge_counts_one :
    ((run (Dashboard.step liTags sampleId) Dashboard.start menuActions).menu 0).notiCount =
        some ((run (Dashboard.step liTags sampleId) Dashboard.start menuActions).taken 0 -
          Dashboard.start.dismissedAfter liTags sampleId 0 0 menuActions) ↔
      Dashboard.start.dismissedAfter liTags sampleId 0 0 menuActions <
        (run (Dashboard.step liTags sampleId) Dashboard.start menuActions).taken 0 :=
  badge_counts_undismissed liTags li_tags_positive li_tags_plain sampleId menuActions 0 menu_texts_plain (by decide +kernel)

omit [DecidableEq Ch] [DecidableEq S] in
theorem utters_more (events more : List (MessageEvent Ch)) (happening : Happening Ch S) (text : JString) (le : events <+: more)
    (utters : Utters events happening text) : Utters more happening text := by
  rcases utters with debug | ⟨data, now, published, same⟩
  · exact .inl debug
  · refine .inr ⟨data, now, published.imp_left ?_, same⟩
    rintro ⟨event, member, about⟩
    exact ⟨event, le.subset member, about⟩

theorem inbox_has_sources (elements : JString → Nat) (id : Ch → JString) (actions : List (DashboardAction Ch S))
    (session : S) (text : JString)
    (sent : text ∈ (run (Dashboard.step elements id) Dashboard.start actions).monitor.ws.inbox session) :
    ∃ happening, .happening happening ∈ actions ∧
      Utters (run (Dashboard.step elements id) Dashboard.start actions).monitor.server.events happening text := by
  induction actions using List.reverseRecOn with
  | nil => cases sent
  | append_singleton earlier last ih =>
      rw [run_append, run_cons, run_nil] at sent ⊢
      have same : (∀ happening, last ≠ .happening happening) →
          ((run (Dashboard.step elements id) Dashboard.start earlier).step elements id last).monitor =
            (run (Dashboard.step elements id) Dashboard.start earlier).monitor := by
        intro click
        cases last with
        | happening happening => exact absurd rfl (click happening)
        | onMessage other =>
            rw [Dashboard.step]
            split
            · rfl
            · rfl
        | toggle other => rfl
        | clearMenus other => rfl
      have old : (∀ happening, last ≠ .happening happening) → ∃ happening, .happening happening ∈ earlier ++ [last] ∧
          Utters ((run (Dashboard.step elements id) Dashboard.start earlier).step elements id last).monitor.server.events
            happening text := by
        intro click
        rw [same click] at sent ⊢
        obtain ⟨happening, member, utters⟩ := ih sent
        exact ⟨happening, List.mem_append_left _ member, utters⟩
      cases last with
      | happening happening =>
          have speaks := monitor_speaks id (run (Dashboard.step elements id) Dashboard.start earlier).monitor happening session
          obtain ⟨news, inbox, utters⟩ := speaks.inbox
          simp only [Dashboard.step, inbox, List.mem_append] at sent ⊢
          rcases sent with before | new
          · obtain ⟨other, member, said⟩ := ih before
            exact ⟨other, .inl member, utters_more _ _ other text speaks.events said⟩
          · exact ⟨happening, .inr (List.mem_singleton.mpr rfl), utters text new⟩
      | onMessage other => exact old (by simp)
      | toggle other => exact old (by simp)
      | clearMenus other => exact old (by simp)

-- No page shows a notification of something that has not happened.
theorem menu_items_have_sources (elements : JString → Nat) (positive : ∀ text, 0 < elements (informEvent text))
    (one : ∀ text, NoMarkup text → elements (informEvent text) = 1) (id : Ch → JString)
    (actions : List (DashboardAction Ch S)) (session : S)
    (plain : ∀ text ∈ (run (Dashboard.step elements id) Dashboard.start actions).monitor.ws.inbox session, NoMarkup text)
    (item : JString) (shown : item ∈ ((run (Dashboard.step elements id) Dashboard.start actions).menu session).items) :
    elements item = 1 ∧ ∃ text happening, item = informEvent text ∧ .happening happening ∈ actions ∧
      Utters (run (Dashboard.step elements id) Dashboard.start actions).monitor.server.events happening text := by
  have shows := run_shows_sent elements positive id session actions Dashboard.start 0 (shows_sent_start elements session)
  rw [shows.items] at shown
  obtain ⟨text, member, rfl⟩ := List.mem_map.mp shown
  have sent := List.mem_of_mem_take (List.mem_of_mem_drop member)
  obtain ⟨happening, source, utters⟩ := inbox_has_sources elements id actions session text sent
  exact ⟨one text (plain text sent), text, happening, rfl, source, utters⟩

theorem disconnected_item_has_source :
    liTags (informEvent ((disconnectedText (ofString "a(d53f5b8e)")).notificationFormat sampleTime.text)) = 1 ∧
      ∃ text happening, informEvent ((disconnectedText (ofString "a(d53f5b8e)")).notificationFormat sampleTime.text) =
        informEvent text ∧ .happening happening ∈ menuActions ∧
      Utters (run (Dashboard.step liTags sampleId) Dashboard.start menuActions).monitor.server.events happening text :=
  menu_items_have_sources liTags li_tags_positive li_tags_plain sampleId menuActions 0 menu_texts_plain _ (by decide +kernel)

end Nenes
