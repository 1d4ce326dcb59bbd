import Nenes.ChannelManager

set_option autoImplicit false

namespace Nenes

open ByteBuf OperationServerHandler Server Runs

variable {Ch : Type} [DecidableEq Ch]

structure RegistryExact (s : Server Ch) : Prop where
  noClosed : ∀ key c, s.map.lookup key = some c → s.inactive c = false
  ownName : ∀ c, s.inactive c = false → ∀ key, s.map.lookup key = some c → key = (s.handler c).agentName

-- A connection that has a name completes no JOIN under another one. The put
-- leaves the old key in the map, and channelInactive removes the new key only.
def KeepsName (id : Ch → JString) (s : Server Ch) : Call Ch → Prop
  | .channelRead0 c msg =>
      ∀ name, JoinsAs id s c msg name → (s.handler c).agentName = [] ∨ name = (s.handler c).agentName
  | .channelInactive _ => True

structure RegistryInvariant (s : Server Ch) : Prop where
  exact : RegistryExact s
  named : ∀ key c, s.map.lookup key = some c → key ≠ []

theorem name_of_nonempty (data id : JString) : nameOf data id ≠ [] := by
  simp [nameOf, ofString, Unicode.encodeUtf16, Unicode.charUnits]

omit [DecidableEq Ch] in
theorem registry_invariant_start : RegistryInvariant (start : Server Ch) where
  exact := ⟨by simp [start], by simp [start]⟩
  named := by simp [start]

omit [DecidableEq Ch] in
theorem joined_name_nonempty (id : Ch → JString) (s : Server Ch) (c : Ch) (msg : Chunk) (name : JString)
    (joined : JoinsAs id s c msg name) : name ≠ [] := by
  obtain ⟨data, _, rfl⟩ := joined
  exact name_of_nonempty _ _

theorem registry_invariant_quiet (s : Server Ch) (inv : RegistryInvariant s) (c : Ch) (after : OperationServerHandler)
    (sameName : after.agentName = (s.handler c).agentName) :
    RegistryInvariant { s with handler := Function.update s.handler c after } := by
  refine ⟨⟨inv.exact.noClosed, fun other alive key found => ?_⟩, inv.named⟩
  have current := inv.exact.ownName other alive key found
  by_cases own : other = c
  · subst own
    simpa [sameName] using current
  · simpa [own] using current

theorem registry_invariant_joined (s : Server Ch) (inv : RegistryInvariant s) (c : Ch) (after : OperationServerHandler)
    (live : s.inactive c = false) (nonempty : after.agentName ≠ [])
    (keeps : (s.handler c).agentName = [] ∨ after.agentName = (s.handler c).agentName) :
    RegistryInvariant (joinedState s c after) := by
  refine ⟨⟨?_, ?_⟩, ?_⟩
  · intro key other found
    rcases lookup_joined s c other after key found with ⟨_, rfl⟩ | ⟨_, before⟩
    · exact live
    · exact inv.exact.noClosed key other before
  · intro other alive key found
    rcases lookup_joined s c other after key found with ⟨rfl, rfl⟩ | ⟨hit, before⟩
    · simp [joinedState]
    · have current := inv.exact.ownName other alive key before
      by_cases own : other = c
      · subst own
        -- The old key of this connection is the empty name or the new key.
        rcases keeps with unnamed | same
        · exact False.elim (inv.named key other before (current.trans unnamed))
        · exact False.elim (hit (current.trans same.symm))
      · simpa [joinedState, own] using current
  · intro key other found
    rcases lookup_joined s c other after key found with ⟨rfl, _⟩ | ⟨_, before⟩
    · exact nonempty
    · exact inv.named key other before

theorem lookup_inactive (s : Server Ch) (inv : RegistryInvariant s) (c other : Ch) (live : s.inactive c = false)
    (key : JString) (found : (inactiveState s c).map.lookup key = some other) :
    s.map.lookup key = some other ∧ other ≠ c := by
  obtain ⟨hit, before⟩ := lookup_after_inactive s c other key found
  refine ⟨before, fun same => ?_⟩
  subst same
  exact hit (inv.exact.ownName other live key before)

theorem registry_invariant_inactive (s : Server Ch) (inv : RegistryInvariant s) (c : Ch) (live : s.inactive c = false) :
    RegistryInvariant (inactiveState s c) := by
  refine ⟨⟨?_, ?_⟩, ?_⟩
  · intro key other found
    obtain ⟨before, different⟩ := lookup_inactive s inv c other live key found
    simpa [inactiveState, different] using inv.exact.noClosed key other before
  · intro other alive key found
    obtain ⟨before, different⟩ := lookup_inactive s inv c other live key found
    simp only [inactiveState, Function.update_of_ne different] at alive
    exact inv.exact.ownName other alive key before
  · intro key other found
    exact inv.named key other (lookup_inactive s inv c other live key found).1

theorem registry_invariant_call (id : Ch → JString) (s : Server Ch) (action : Call Ch) (inv : RegistryInvariant s)
    (allowed : Live s action ∧ KeepsName id s action) : RegistryInvariant (call id s action) := by
  obtain ⟨live, keeps⟩ := allowed
  cases action with
  | channelRead0 c msg =>
      cases call_read_cases id s c msg with
      | quiet _ sameName next =>
          rw [next]
          exact registry_invariant_quiet s inv c _ sameName
      | joined joined next =>
          rw [next]
          exact registry_invariant_joined s inv c _ live (joined_name_nonempty id s c msg _ joined) (keeps _ joined)
  | channelInactive c =>
      rw [call_inactive]
      exact registry_invariant_inactive s inv c live

-- Each prefix of a guarded run is a guarded run, so this is every state reached.
theorem registry_exact_while_names_kept (id : Ch → JString) (calls : List (Call Ch))
    (guarded : Along (call id) (fun s action => Live s action ∧ KeepsName id s action) start calls) :
    RegistryExact (run (call id) start calls) :=
  (invariant_along (call id) _ RegistryInvariant (registry_invariant_call id) start calls
    registry_invariant_start guarded).exact

theorem registry_exact_one_agent :
    RegistryExact (run (call sampleId) start [joinA, .channelInactive 0]) :=
  registry_exact_while_names_kept sampleId [joinA, .channelInactive 0]
    ⟨⟨rfl, fun _ _ => .inl rfl⟩, ⟨by decide +kernel, trivial⟩, trivial⟩

theorem renamed_agent_stays_listed :
    Along (call sampleId) Live start
        [joinA, joinB, .channelInactive 0] ∧
      ¬ RegistryExact (run (call sampleId) start
        [joinA, joinB, .channelInactive 0]) := by
  refine ⟨by decide +kernel, fun exact => ?_⟩
  have closed := exact.noClosed (nameOf (ofString "a") (sampleId 0)) 0 (by decide +kernel)
  revert closed
  decide +kernel

end Nenes
