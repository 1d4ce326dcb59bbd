import Nenes.Base.EventLog
import Nenes.Isolation

set_option autoImplicit false

namespace Nenes

open ByteBuf OperationServerHandler Server Runs EventLog

variable {Ch : Type} [DecidableEq Ch]

def IsConnected (name : JString) (event : MessageEvent Ch) : Prop :=
  event.data.eventType = .connected ∧ event.data.publisher = name

def isDisconnected (name : JString) (event : MessageEvent Ch) : Bool :=
  event.data.eventType = .disconnected ∧ event.data.publisher = name

structure NotificationsPair (s : Server Ch) : Prop where
  preceded : ∀ name, EachPreceded (IsConnected name) (fun event => isDisconnected name event = true) s.events
  followed : ∀ c, s.inactive c = true → ∀ name,
    EachFollowedOnce (fun event => event.source = c ∧ IsConnected name event) (isDisconnected name) s.events

-- channelInactive publishes the current agentName, joined or not, once. So a
-- connection must have joined before it goes inactive and keep its name, and
-- the name must be its own.
def JoinsUnderOneName (id : Ch → JString) (s : Server Ch) : Call Ch → Prop
  | .channelRead0 c msg =>
      KeepsName id s (.channelRead0 c msg) ∧ ∀ name, JoinsAs id s c msg name →
        ∀ event ∈ s.events, event.data.publisher = name → event.source = c
  | .channelInactive c => (s.handler c).agentName ≠ []

structure NotificationInvariant (s : Server Ch) : Prop where
  pairs : NotificationsPair s
  unnamed : ∀ c, (s.handler c).agentName = [] → s.inactive c = false ∧ ∀ event ∈ s.events, event.source ≠ c
  named : ∀ c, (s.handler c).agentName ≠ [] → ∃ event ∈ s.events, event.source = c ∧ IsConnected (s.handler c).agentName event
  ownName : ∀ event ∈ s.events, event.data.publisher = (s.handler event.source).agentName
  live : ∀ event ∈ s.events, s.inactive event.source = false → event.data.eventType = .connected
  oneOwner : ∀ event ∈ s.events, ∀ other ∈ s.events, event.data.publisher = other.data.publisher → event.source = other.source

omit [DecidableEq Ch] in
theorem notification_invariant_start : NotificationInvariant (start : Server Ch) where
  pairs := ⟨fun _ => each_preceded_nil _ _, by simp [start]⟩
  unnamed := by simp [start]
  named := by simp [start]
  ownName := by simp [start]
  live := by simp [start]
  oneOwner := by simp [start]

omit [DecidableEq Ch] in
theorem live_name_owned (s : Server Ch) (inv : NotificationInvariant s) (c : Ch) (named : (s.handler c).agentName ≠ []) :
    ∀ event ∈ s.events, event.data.publisher = (s.handler c).agentName → event.source = c := by
  obtain ⟨joined, joinedMember, joinedSource, joinedEvent⟩ := inv.named c named
  intro event member same
  exact (inv.oneOwner event member joined joinedMember (same.trans joinedEvent.2.symm)).trans joinedSource

omit [DecidableEq Ch] in
theorem live_name_not_disconnected (s : Server Ch) (inv : NotificationInvariant s) (c : Ch)
    (named : (s.handler c).agentName ≠ []) (live : s.inactive c = false) (event : MessageEvent Ch)
    (member : event ∈ s.events) : isDisconnected (s.handler c).agentName event = false := by
  rw [isDisconnected, decide_eq_false_iff_not]
  intro leaves
  have owner := live_name_owned s inv c named event member leaves.2
  have connected := inv.live event member (by rw [owner, live])
  cases connected.symm.trans leaves.1

omit [DecidableEq Ch] in
theorem notification_invariant_quiet (s t : Server Ch) (inv : NotificationInvariant s) (events : t.events = s.events)
    (inactive : t.inactive = s.inactive) (names : ∀ c, (t.handler c).agentName = (s.handler c).agentName) :
    NotificationInvariant t where
  pairs := ⟨by rw [events]; exact inv.pairs.preceded, by rw [events, inactive]; exact inv.pairs.followed⟩
  unnamed := by simpa only [events, inactive, names] using inv.unnamed
  named := by simpa only [events, names] using inv.named
  ownName := by simpa only [events, names] using inv.ownName
  live := by simpa only [events, inactive] using inv.live
  oneOwner := by simpa only [events] using inv.oneOwner

theorem joined_notifications_pair (s : Server Ch) (inv : NotificationInvariant s) (c : Ch) (after : OperationServerHandler)
    (live : s.inactive c = false) : NotificationsPair (joinedState s c after) where
  preceded := by
    intro name
    apply each_preceded_snoc _ _ _ _ (inv.pairs.preceded name)
    intro closing
    simp [isDisconnected] at closing
  followed := by
    intro other closed name
    apply each_followed_once_snoc
    · intro joins
      have source : c = other := joins.1
      rw [← source] at closed
      exact absurd (live.symm.trans closed) (by simp)
    · exact .inr ⟨by simp [isDisconnected], inv.pairs.followed other closed name⟩

theorem notification_invariant_joined (s : Server Ch) (inv : NotificationInvariant s) (c : Ch) (after : OperationServerHandler)
    (live : s.inactive c = false) (nonempty : after.agentName ≠ [])
    (keeps : (s.handler c).agentName = [] ∨ after.agentName = (s.handler c).agentName)
    (own : ∀ event ∈ s.events, event.data.publisher = after.agentName → event.source = c) :
    NotificationInvariant (joinedState s c after) where
  pairs := joined_notifications_pair s inv c after live
  unnamed := by
    simp only [joinedState]
    intro other unnamed
    by_cases same : other = c
    · subst same
      rw [Function.update_self] at unnamed
      exact False.elim (nonempty unnamed)
    · rw [Function.update_of_ne same] at unnamed
      obtain ⟨open_, absent⟩ := inv.unnamed other unnamed
      exact ⟨open_, forall_snoc _ _ _ absent (Ne.symm same)⟩
  named := by
    simp only [joinedState]
    intro other named
    by_cases same : other = c
    · subst same
      refine ⟨_, List.mem_append_right _ (List.mem_singleton.mpr rfl), rfl, rfl, ?_⟩
      simp
    · rw [Function.update_of_ne same] at named ⊢
      obtain ⟨event, member, found⟩ := inv.named other named
      exact ⟨event, List.mem_append_left _ member, found⟩
  ownName := by
    simp only [joinedState]
    apply forall_snoc
    · intro event member
      by_cases same : event.source = c
      · rw [inv.ownName event member, same, Function.update_self]
        rcases keeps with unnamed | kept
        · exact False.elim ((inv.unnamed c unnamed).2 event member same)
        · exact kept.symm
      · rw [Function.update_of_ne same]
        exact inv.ownName event member
    · simp
  live := forall_snoc _ _ _ inv.live fun _ => rfl
  oneOwner := one_owner_snoc _ _ _ _ inv.oneOwner own

theorem inactive_notifications_pair (s : Server Ch) (inv : NotificationInvariant s) (c : Ch)
    (live : s.inactive c = false) (named : (s.handler c).agentName ≠ []) : NotificationsPair (inactiveState s c) := by
  have unclosed := live_name_not_disconnected s inv c named live
  refine ⟨?_, ?_⟩
  all_goals simp only [inactiveState]
  · obtain ⟨joined, joinedMember, _, joinedEvent⟩ := inv.named c named
    intro name
    apply each_preceded_snoc _ _ _ _ (inv.pairs.preceded name)
    intro closing
    have sameName : (s.handler c).agentName = name := by simpa [isDisconnected] using closing
    subst sameName
    refine ⟨⟨joined, joinedMember, joinedEvent⟩, fun other member => ?_⟩
    rw [unclosed other member]
    simp
  · intro other closed name
    apply each_followed_once_snoc
    · intro joins
      cases joins.2.1
    · by_cases same : (s.handler c).agentName = name
      · subst same
        exact .inl ⟨by simp [isDisconnected], unclosed⟩
      · refine .inr ⟨by simp [isDisconnected, same], ?_⟩
        by_cases closing : other = c
        · intro before event rest split caused
          obtain ⟨source, _, eventName⟩ := caused
          have publisher := inv.ownName event (by simp [split])
          rw [source, closing, eventName] at publisher
          exact False.elim (same publisher.symm)
        · rw [Function.update_of_ne closing] at closed
          exact inv.pairs.followed other closed name

theorem notification_invariant_inactive (s : Server Ch) (inv : NotificationInvariant s) (c : Ch)
    (live : s.inactive c = false) (named : (s.handler c).agentName ≠ []) :
    NotificationInvariant (inactiveState s c) where
  pairs := inactive_notifications_pair s inv c live named
  unnamed := by
    simp only [inactiveState]
    intro other unnamed
    have different : other ≠ c := by
      intro same
      exact named (same ▸ unnamed)
    rw [Function.update_of_ne different]
    obtain ⟨open_, absent⟩ := inv.unnamed other unnamed
    exact ⟨open_, forall_snoc _ _ _ absent (Ne.symm different)⟩
  named := by
    intro other otherNamed
    obtain ⟨event, member, found⟩ := inv.named other otherNamed
    exact ⟨event, List.mem_append_left _ member, found⟩
  ownName := forall_snoc _ _ _ inv.ownName rfl
  live := by
    simp only [inactiveState]
    apply forall_snoc
    · intro event member open_
      by_cases closing : event.source = c
      · rw [closing, Function.update_self] at open_
        cases open_
      · rw [Function.update_of_ne closing] at open_
        exact inv.live event member open_
    · intro open_
      simp at open_
  oneOwner := one_owner_snoc _ _ _ _ inv.oneOwner (live_name_owned s inv c named)

theorem notification_invariant_call (id : Ch → JString) (s : Server Ch) (action : Call Ch) (inv : NotificationInvariant s)
    (allowed : Live s action ∧ JoinsUnderOneName id s action) : NotificationInvariant (call id s action) := by
  obtain ⟨live, one⟩ := allowed
  cases action with
  | channelRead0 c msg =>
      cases call_read_cases id s c msg with
      | quiet _ sameName next =>
          rw [next]
          refine notification_invariant_quiet s _ inv rfl rfl fun other => ?_
          by_cases own : other = c
          · subst own
            simpa using sameName
          · simp [own]
      | joined joined next =>
          rw [next]
          have nonempty := joined_name_nonempty id s c msg _ joined
          exact notification_invariant_joined s inv c _ live nonempty (one.1 _ joined) (one.2 _ joined)
  | channelInactive c =>
      rw [call_inactive]
      exact notification_invariant_inactive s inv c live one

theorem notifications_pair_while_joined_once (id : Ch → JString) (calls : List (Call Ch))
    (guarded : Along (call id) (fun s action => Live s action ∧ JoinsUnderOneName id s action) start calls) :
    NotificationsPair (run (call id) start calls) :=
  (invariant_along (call id) _ NotificationInvariant (notification_invariant_call id) start calls
    notification_invariant_start guarded).pairs

theorem notifications_pair_one_agent :
    NotificationsPair (run (call sampleId) start [joinA, .channelInactive 0]) :=
  notifications_pair_while_joined_once sampleId [joinA, .channelInactive 0]
    ⟨⟨rfl, fun _ _ => .inl rfl, fun _ _ _ member => (by cases member)⟩,
      ⟨by decide +kernel, by change _ ≠ _; decide +kernel⟩, trivial⟩

theorem unjoined_disconnect_unpaired :
    Along (call sampleId) Live start [.channelInactive 0] ∧
      ¬ NotificationsPair (run (call sampleId) start [.channelInactive 0]) := by
  refine ⟨by decide +kernel, fun pairs => ?_⟩
  obtain ⟨earlier, opening, between, none, _⟩ := pairs.preceded [] [] ⟨0, ⟨.disconnected, [], []⟩⟩ [] rfl rfl
  simp at none

-- Where the ids are distinct a name says whose it is, and the last part of the
-- condition holds by itself.
structure NamesOwned (id : Ch → JString) (s : Server Ch) : Prop where
  keys : KeysOwned id s
  events : ∀ event ∈ s.events, event.data.publisher = [] ∨ ∃ data, event.data.publisher = nameOf data (id event.source)

theorem names_owned_call (id : Ch → JString) (s : Server Ch) (action : Call Ch) (owned : NamesOwned id s) :
    NamesOwned id (call id s action) := by
  refine ⟨keys_owned_call id s action owned.keys, ?_⟩
  cases action with
  | channelRead0 c msg =>
      cases call_read_cases id s c msg with
      | quiet _ _ next =>
          rw [next]
          exact owned.events
      | joined joins next =>
          obtain ⟨data, _, nameEq⟩ := joins
          rw [next]
          intro event member
          rcases List.mem_append.mp member with old | new
          · exact owned.events event old
          · rw [List.mem_singleton.mp new]
            exact .inr ⟨_, nameEq⟩
  | channelInactive c =>
      rw [call_inactive]
      intro event member
      rcases List.mem_append.mp member with old | new
      · exact owned.events event old
      · rw [List.mem_singleton.mp new]
        exact owned.keys.names c

omit [DecidableEq Ch] in
theorem joined_name_is_own (id : Ch → JString) (distinct : Function.Injective id) (plain : ∀ c, openParen ∉ id c)
    (s : Server Ch) (owned : NamesOwned id s) (c : Ch) (msg : Chunk) (name : JString) (joined : JoinsAs id s c msg name)
    (event : MessageEvent Ch) (member : event ∈ s.events) (same : event.data.publisher = name) : event.source = c := by
  obtain ⟨data, _, nameEq⟩ := joined
  rcases owned.events event member with unnamed | ⟨other, otherEq⟩
  · exact False.elim (name_of_nonempty _ _ (nameEq.symm.trans (same.symm.trans unnamed)))
  · exact distinct (name_of_id _ _ _ _ (plain _) (plain _) (otherEq.symm.trans (same.trans nameEq)))

def LeavesUnderOneName (id : Ch → JString) (s : Server Ch) : Call Ch → Prop
  | .channelRead0 c msg => KeepsName id s (.channelRead0 c msg)
  | .channelInactive c => (s.handler c).agentName ≠ []

theorem distinct_ids_notifications_pair (id : Ch → JString) (distinct : Function.Injective id)
    (plain : ∀ c, openParen ∉ id c) (calls : List (Call Ch))
    (guarded : Along (call id) (fun s action => Live s action ∧ LeavesUnderOneName id s action) start calls) :
    NotificationsPair (run (call id) start calls) := by
  have inv := invariant_along (call id) _ (fun s => NotificationInvariant s ∧ NamesOwned id s) ?_ start calls
    ⟨notification_invariant_start, keys_owned_start id, by simp [start]⟩ guarded
  · exact inv.1.pairs
  · rintro s action ⟨inv, owned⟩ ⟨live, one⟩
    refine ⟨notification_invariant_call id s action inv ⟨live, ?_⟩, names_owned_call id s action owned⟩
    cases action with
    | channelRead0 c msg =>
        exact ⟨one, fun name joined event member same =>
          joined_name_is_own id distinct plain s owned c msg name joined event member same⟩
    | channelInactive c => exact one

end Nenes
