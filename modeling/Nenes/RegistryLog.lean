import Nenes.Base.EventLog
import Nenes.Isolation

set_option autoImplicit false

namespace Nenes

open ByteBuf OperationServerHandler Server Runs EventLog

variable {Ch : Type} [DecidableEq Ch]

def ConnectedAs (key : JString) (c : Ch) (event : MessageEvent Ch) : Prop := event = ⟨c, ⟨.connected, key, []⟩⟩

def About (key : JString) (event : MessageEvent Ch) : Prop := event.data.publisher = key

-- An entry is the last event about its key: a connection's Connected, with no
-- event under that name since.
def ReplaysEvents (s : Server Ch) : Prop :=
  ∀ key c, s.map.lookup key = some c ↔ Since (ConnectedAs key c) (About key) s.events

omit [DecidableEq Ch] in
theorem replays_events_start : ReplaysEvents (start : Server Ch) := by
  intro key c
  refine ⟨fun found => ?_, fun since => ?_⟩
  · simp [start] at found
  · obtain ⟨before, opening, after, same, _⟩ := since
    simp [start] at same

theorem replays_events_joined (s : Server Ch) (c : Ch) (after : OperationServerHandler) (replays : ReplaysEvents s) :
    ReplaysEvents (joinedState s c after) := by
  intro key other
  rw [joinedState, since_snoc, ← replays key other]
  by_cases hit : key = after.agentName
  · subst hit
    rw [Finmap.lookup_insert]
    simp [ConnectedAs, About]
  · rw [Finmap.lookup_insert_of_ne _ hit]
    simp [ConnectedAs, About, Ne.symm hit]

theorem replays_events_inactive (s : Server Ch) (c : Ch) (replays : ReplaysEvents s) : ReplaysEvents (inactiveState s c) := by
  intro key other
  rw [inactiveState, since_snoc, ← replays key other]
  by_cases hit : key = (s.handler c).agentName
  · subst hit
    rw [Finmap.lookup_erase]
    simp [ConnectedAs, About]
  · rw [Finmap.lookup_erase_ne hit]
    simp [ConnectedAs, About, Ne.symm hit]

theorem replays_events_call (id : Ch → JString) (s : Server Ch) (action : Call Ch) (replays : ReplaysEvents s) :
    ReplaysEvents (call id s action) := by
  cases action with
  | channelRead0 c msg =>
      cases call_read_cases id s c msg with
      | quiet _ _ next =>
          rw [next]
          exact replays
      | joined _ next =>
          rw [next]
          exact replays_events_joined s c _ replays
  | channelInactive c =>
      rw [call_inactive]
      exact replays_events_inactive s c replays

-- Renamed connections, forged names and repeated calls included.
theorem registry_is_last_event (id : Ch → JString) (calls : List (Call Ch)) (key : JString) (c : Ch) :
    (run (call id) start calls).map.lookup key = some c ↔
      Since (ConnectedAs key c) (About key) (run (call id) start calls).events :=
  invariant_run (call id) ReplaysEvents (replays_events_call id) start calls replays_events_start key c

structure Reachable (id : Ch → JString) (s : Server Ch) : Prop where
  owned : KeysOwned id s
  found : ∀ c name, s.inactive c = false → (s.handler c).agentName = name → name ≠ [] → s.map.lookup name = some c

omit [DecidableEq Ch] in
theorem reachable_start (id : Ch → JString) : Reachable id (start : Server Ch) :=
  ⟨keys_owned_start id, fun _ _ _ unnamed named => absurd unnamed.symm named⟩

theorem reachable_own_read (id : Ch → JString) (s : Server Ch) (c : Ch) (msg : Chunk) (reachable : Reachable id s)
    (live : s.inactive c = false) (name : JString) (current : ((call id s (.channelRead0 c msg)).handler c).agentName = name)
    (named : name ≠ []) : (call id s (.channelRead0 c msg)).map.lookup name = some c := by
  cases call_read_cases id s c msg with
  | quiet _ sameName next =>
      simp only [next, Function.update_self] at current
      rw [next]
      exact reachable.found c name live (sameName.symm.trans current) named
  | joined _ next =>
      simp only [next, joinedState, Function.update_self] at current
      rw [next, joinedState, current, Finmap.lookup_insert]

theorem still_live (id : Ch → JString) (s : Server Ch) (action : Call Ch) (c : Ch)
    (live : (call id s action).inactive c = false) : s.inactive c = false ∧ action ≠ .channelInactive c := by
  cases action with
  | channelRead0 other msg =>
      refine ⟨?_, by simp⟩
      cases call_read_cases id s other msg with
      | quiet _ _ next => simpa [next] using live
      | joined _ next => simpa [next, joinedState] using live
  | channelInactive other =>
      rw [call_inactive, inactiveState] at live
      have different : other ≠ c := by
        intro same
        simp [same] at live
      refine ⟨by simpa [Function.update_of_ne (Ne.symm different)] using live, ?_⟩
      simpa using different

theorem reachable_call (id : Ch → JString) (distinct : Function.Injective id) (plain : ∀ c, openParen ∉ id c) (s : Server Ch)
    (action : Call Ch) (reachable : Reachable id s) : Reachable id (call id s action) := by
  refine ⟨keys_owned_call id s action reachable.owned, fun c name live current named => ?_⟩
  obtain ⟨before, other⟩ := still_live id s action c live
  by_cases own : action.channel = c
  · cases action with
    | channelRead0 reader msg =>
        obtain rfl : reader = c := own
        exact reachable_own_read id s reader msg reachable before name current named
    | channelInactive closed => exact absurd (congrArg Call.channelInactive own) other
  · rw [other_call_keeps_entries id distinct plain s reachable.owned c action own]
    rw [other_call_keeps_handler id s c action own] at current
    exact reachable.found c name before current named

-- The other half of an exact registry needs no condition on the names: whatever
-- a connection renames itself to, it is found under its present name.
theorem joined_agents_stay_reachable (id : Ch → JString) (distinct : Function.Injective id) (plain : ∀ c, openParen ∉ id c)
    (calls : List (Call Ch)) (c : Ch) (live : (run (call id) start calls).inactive c = false)
    (named : ((run (call id) start calls).handler c).agentName ≠ []) :
    (run (call id) start calls).map.lookup ((run (call id) start calls).handler c).agentName = some c :=
  (invariant_run (call id) (Reachable id) (reachable_call id distinct plain) start calls (reachable_start id)).found c _ live
    rfl named

theorem renamed_agent_stays_reachable :
    (run (call pairId) start forgedCalls).map.lookup ((run (call pairId) start forgedCalls).handler true).agentName =
      some true :=
  joined_agents_stay_reachable pairId (by intro a b; revert a b; decide +kernel) (by decide +kernel) forgedCalls true
    (by decide +kernel) (by decide +kernel)

end Nenes
