import Nenes.Registry

set_option autoImplicit false

namespace Nenes

open ByteBuf OperationServerHandler Server Runs

variable {Ch : Type} [DecidableEq Ch]

def openParen : UInt16 := 40

theorem name_of_parts (data id : JString) : nameOf data id = data ++ openParen :: (id ++ [41]) := by
  simp [nameOf, ofString, Unicode.encodeUtf16, Unicode.charUnits, openParen]

theorem before_separator (sep : UInt16) (a b x y : JString) (plainLeft : sep ∉ a) (plainRight : sep ∉ b)
    (same : a ++ sep :: x = b ++ sep :: y) : a = b := by
  induction a generalizing b with
  | nil =>
      cases b with
      | nil => rfl
      | cons unit tail =>
          obtain ⟨rfl, _⟩ := List.cons.inj same
          exact False.elim (plainRight (by simp))
  | cons head rest ih =>
      cases b with
      | nil =>
          obtain ⟨rfl, _⟩ := List.cons.inj same
          exact False.elim (plainLeft (by simp))
      | cons unit tail =>
          obtain ⟨rfl, tails⟩ := List.cons.inj same
          rw [ih tail (by simp_all) (by simp_all) tails]

-- The payload may hold parentheses and other agents' ids: the last opening
-- parenthesis of a key is the one the handler wrote.
theorem name_of_id (a b i j : JString) (plainLeft : openParen ∉ i) (plainRight : openParen ∉ j)
    (same : nameOf a i = nameOf b j) : i = j := by
  rw [name_of_parts, name_of_parts] at same
  have turned := congrArg List.reverse same
  simp only [List.reverse_append, List.reverse_cons, List.reverse_nil, List.nil_append, List.append_assoc,
    List.cons_append, List.cons.injEq, true_and] at turned
  exact List.reverse_injective
    (before_separator openParen _ _ _ _ (by simpa using plainLeft) (by simpa using plainRight) turned)

structure KeysOwned (id : Ch → JString) (s : Server Ch) : Prop where
  keys : ∀ key c, s.map.lookup key = some c → ∃ data, key = nameOf data (id c)
  names : ∀ c, (s.handler c).agentName = [] ∨ ∃ data, (s.handler c).agentName = nameOf data (id c)

omit [DecidableEq Ch] in
theorem keys_owned_start (id : Ch → JString) : KeysOwned id (start : Server Ch) :=
  ⟨by simp [start], fun _ => .inl rfl⟩

theorem keys_owned_read (id : Ch → JString) (s : Server Ch) (c : Ch) (msg : Chunk) (owned : KeysOwned id s) :
    KeysOwned id (call id s (.channelRead0 c msg)) := by
  cases call_read_cases id s c msg with
  | quiet _ sameName next =>
      rw [next]
      refine ⟨owned.keys, fun other => ?_⟩
      by_cases own : other = c
      · subst own
        simpa [sameName] using owned.names other
      · simpa [own] using owned.names other
  | joined joins next =>
      obtain ⟨data, _, nameEq⟩ := joins
      rw [next]
      refine ⟨fun key other found => ?_, fun other => ?_⟩
      · rcases lookup_joined s c other _ key found with ⟨keyEq, rfl⟩ | ⟨_, before⟩
        · exact ⟨_, keyEq.trans nameEq⟩
        · exact owned.keys key other before
      · by_cases own : other = c
        · subst own
          exact .inr ⟨_, by simpa [joinedState] using nameEq⟩
        · simpa [joinedState, own] using owned.names other

theorem keys_owned_call (id : Ch → JString) (s : Server Ch) (action : Call Ch) (owned : KeysOwned id s) :
    KeysOwned id (call id s action) := by
  cases action with
  | channelRead0 c msg => exact keys_owned_read id s c msg owned
  | channelInactive c =>
      rw [call_inactive]
      exact ⟨fun key other found => owned.keys key other (lookup_after_inactive s c other key found).2, owned.names⟩

omit [DecidableEq Ch] in
theorem owned_key_differs (id : Ch → JString) (distinct : Function.Injective id) (plain : ∀ c, openParen ∉ id c)
    (s : Server Ch) (owned : KeysOwned id s) (c other : Ch) (different : other ≠ c) (key data : JString)
    (found : s.map.lookup key = some c) : key ≠ nameOf data (id other) := by
  intro same
  obtain ⟨mine, keyEq⟩ := owned.keys key c found
  exact different (distinct (name_of_id _ _ _ _ (plain other) (plain c) (same.symm.trans keyEq)))

theorem other_call_keeps_entries (id : Ch → JString) (distinct : Function.Injective id) (plain : ∀ c, openParen ∉ id c)
    (s : Server Ch) (owned : KeysOwned id s) (c : Ch) (action : Call Ch) (different : action.channel ≠ c) (key : JString) :
    (call id s action).map.lookup key = some c ↔ s.map.lookup key = some c := by
  cases action with
  | channelRead0 other msg =>
      cases call_read_cases id s other msg with
      | quiet _ _ next =>
          rw [next]
      | joined joins next =>
          obtain ⟨data, _, nameEq⟩ := joins
          rw [next]
          by_cases hit : key = (afterRead id s other msg).agentName
          · rw [joinedState, hit, Finmap.lookup_insert]
            constructor
            · intro own
              cases own
              exact False.elim (different rfl)
            · intro found
              exact False.elim (owned_key_differs id distinct plain s owned c other different _ _ found nameEq)
          · rw [joinedState, Finmap.lookup_insert_of_ne _ hit]
  | channelInactive other =>
      rw [call_inactive]
      by_cases hit : key = (s.handler other).agentName
      · rw [inactiveState, hit, Finmap.lookup_erase]
        refine ⟨fun absent => (by cases absent), fun found => ?_⟩
        rcases owned.names other with unnamed | ⟨data, nameEq⟩
        · obtain ⟨mine, keyEq⟩ := owned.keys _ c found
          exact False.elim (name_of_nonempty mine (id c) (keyEq.symm.trans unnamed))
        · exact False.elim (owned_key_differs id distinct plain s owned c other different _ _ found nameEq)
      · rw [inactiveState, Finmap.lookup_erase_ne hit]

theorem other_call_keeps_handler (id : Ch → JString) (s : Server Ch) (c : Ch) (action : Call Ch)
    (different : action.channel ≠ c) : (call id s action).handler c = s.handler c := by
  cases action with
  | channelRead0 other msg =>
      change other ≠ c at different
      cases call_read_cases id s other msg with
      | quiet _ _ next =>
          simp [next, Function.update_of_ne (Ne.symm different)]
      | joined _ next =>
          simp [next, joinedState, Function.update_of_ne (Ne.symm different)]
  | channelInactive other => rw [call_inactive, inactiveState]

-- What a connection's own call does depends on its handler and its entries only.
structure SameView (id : Ch → JString) (c : Ch) (s t : Server Ch) : Prop where
  owned : KeysOwned id s
  handler : s.handler c = t.handler c
  entries : ∀ key, s.map.lookup key = some c ↔ t.map.lookup key = some c

omit [DecidableEq Ch] in
theorem insert_same_entry (one other : ChannelMap Ch) (name key : JString) (c : Ch)
    (entry : one.lookup key = some c ↔ other.lookup key = some c) :
    (one.insert name c).lookup key = some c ↔ (other.insert name c).lookup key = some c := by
  by_cases hit : key = name
  · rw [hit, Finmap.lookup_insert, Finmap.lookup_insert]
  · rw [Finmap.lookup_insert_of_ne _ hit, Finmap.lookup_insert_of_ne _ hit]
    exact entry

omit [DecidableEq Ch] in
theorem erase_same_entry (one other : ChannelMap Ch) (name key : JString) (c : Ch)
    (entry : one.lookup key = some c ↔ other.lookup key = some c) :
    (one.erase name).lookup key = some c ↔ (other.erase name).lookup key = some c := by
  by_cases hit : key = name
  · rw [hit, Finmap.lookup_erase, Finmap.lookup_erase]
  · rw [Finmap.lookup_erase_ne hit, Finmap.lookup_erase_ne hit]
    exact entry

theorem own_read_same_view (id : Ch → JString) (c : Ch) (s t : Server Ch) (msg : Chunk) (view : SameView id c s t) :
    SameView id c (call id s (.channelRead0 c msg)) (call id t (.channelRead0 c msg)) := by
  have owned := keys_owned_read id s c msg view.owned
  have sameAfter : afterRead id s c msg = afterRead id t c msg := by rw [afterRead, view.handler]; rfl
  have sameJoin : ∀ name, JoinsAs id s c msg name ↔ JoinsAs id t c msg name := by
    intro name
    unfold JoinsAs
    rw [view.handler]
  cases call_read_cases id s c msg with
  | quiet quiet _ next =>
      cases call_read_cases id t c msg with
      | quiet _ _ other =>
          refine ⟨owned, ?_, fun key => ?_⟩
          · simp [next, other, sameAfter]
          · simpa [next, other] using view.entries key
      | joined joined _ => exact False.elim (quiet _ ((sameJoin _).mpr joined))
  | joined joined next =>
      cases call_read_cases id t c msg with
      | quiet quiet _ _ => exact False.elim (quiet _ ((sameJoin _).mp joined))
      | joined _ other =>
          refine ⟨owned, ?_, fun key => ?_⟩
          · simp [next, other, joinedState, sameAfter]
          · rw [next, other, joinedState, joinedState, sameAfter]
            exact insert_same_entry s.map t.map _ key c (view.entries key)

theorem own_call_same_view (id : Ch → JString) (c : Ch) (s t : Server Ch) (action : Call Ch) (own : action.channel = c)
    (view : SameView id c s t) : SameView id c (call id s action) (call id t action) := by
  subst own
  cases action with
  | channelRead0 reader msg => exact own_read_same_view id reader s t msg view
  | channelInactive closed =>
      have owned := keys_owned_call id s (.channelInactive closed) view.owned
      have sameName : (s.handler closed).agentName = (t.handler closed).agentName := congrArg agentName view.handler
      rw [call_inactive] at owned
      rw [call_inactive, call_inactive]
      refine ⟨owned, view.handler, fun key => ?_⟩
      rw [inactiveState, inactiveState, sameName]
      exact erase_same_entry s.map t.map _ key closed (view.entries key)

theorem connections_do_not_interfere (id : Ch → JString) (distinct : Function.Injective id)
    (plain : ∀ c, openParen ∉ id c) (calls : List (Call Ch)) (c : Ch) :
    (∀ key, (run (call id) start calls).map.lookup key = some c ↔
      (run (call id) start (calls.filter fun action => action.channel = c)).map.lookup key = some c) ∧
    (∀ action : Call Ch, action.channel ≠ c → ∀ key,
      (call id (run (call id) start calls) action).map.lookup key = some c ↔
        (run (call id) start calls).map.lookup key = some c) := by
  constructor
  · have simulated : SameView id c (run (call id) start calls)
        (run (call id) start (calls.filter fun action => action.channel = c)) := by
      refine simulation_filter (call id) (call id) _ (SameView id c) ?_ ?_ start start calls
        ⟨keys_owned_start id, rfl, fun _ => Iff.rfl⟩
      · intro s t action kept view
        exact own_call_same_view id c s t action (by simpa using kept) view
      · intro s t action dropped view
        have different : action.channel ≠ c := by simpa using dropped
        exact ⟨keys_owned_call id s action view.owned, (other_call_keeps_handler id s c action different).trans view.handler,
          fun key => (other_call_keeps_entries id distinct plain s view.owned c action different key).trans (view.entries key)⟩
    exact simulated.entries
  · intro action different key
    have owned := invariant_run (call id) (KeysOwned id) (keys_owned_call id) start calls (keys_owned_start id)
    exact other_call_keeps_entries id distinct plain _ owned c action different key

def pairId (c : Bool) : JString := if c then ofString "0c1a77f2" else ofString "d53f5b8e"

theorem forged_fits : (joinFrame (getBytes (ofString "b(0c1a77f2)"))).length < 2 ^ 31 := by decide +kernel

def forgedCalls : List (Call Bool) :=
  [.channelRead0 true chunkB,
    .channelRead0 false ⟨joinFrame (getBytes (ofString "b(0c1a77f2)")), forged_fits⟩,
    .channelInactive false]

theorem forged_name_does_not_interfere :
    (∀ key, (run (call pairId) start forgedCalls).map.lookup key = some true ↔
      (run (call pairId) start (forgedCalls.filter fun action => action.channel = true)).map.lookup key = some true) ∧
    (∀ action : Call Bool, action.channel ≠ true → ∀ key,
      (call pairId (run (call pairId) start forgedCalls) action).map.lookup key = some true ↔
        (run (call pairId) start forgedCalls).map.lookup key = some true) :=
  connections_do_not_interfere pairId (by intro a b; revert a b; decide +kernel) (by decide +kernel) forgedCalls true

end Nenes
