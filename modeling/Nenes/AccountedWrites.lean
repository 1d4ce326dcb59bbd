import Nenes.Isolation
import Nenes.RequestRights

set_option autoImplicit false

namespace Nenes

open ByteBuf OperationServerHandler Runs EventLog

variable {Ch : Type}

def Addressed (id : Ch → JString) (request : WebRequest) (c : Ch) : Prop :=
  ∃ element ∈ request.agents, ∃ data, element = nameOf data (id c)

def earned [FileSystem] (id : Ch → JString) (log : List (Observation Ch)) (disks : List (JString → Option Bytes)) (n : Nat)
    (request : WebRequest) : Rights Ch where
  allowed c := JoinReceived log c ∧ Addressed id request c
  found c := FoundActive log n c ∨ request.asksActive = false
  carries := request.Carries fun path content => ∃ files ∈ disks, files path = some content

theorem carries_mono [FileSystem] (request : WebRequest) (content more : JString → Bytes → Prop)
    (le : ∀ path buf, content path buf → more path buf)
    (part : Part) (buf : Bytes) (carries : request.Carries content part buf) : request.Carries more part buf := by
  cases part with
  | header => exact carries
  | body => exact carries.imp_right fun ⟨path, member, read⟩ => ⟨path, member, le path buf read⟩

theorem rights_earned [FileSystem] (id : Ch → JString) (log : List (Observation Ch)) (disks : List (JString → Option Bytes))
    (n : Nat) (request : WebRequest) : request.rights.Le (earned id log disks n request) :=
  ⟨fun _ known => known.elim, fun _ known => .inr known, carries_mono request _ _ fun _ _ known => known.elim⟩

theorem earned_more [FileSystem] (id : Ch → JString) (log more : List (Observation Ch))
    (disks others : List (JString → Option Bytes)) (n : Nat) (request : WebRequest) :
    (earned id log disks n request).Le (earned id (log ++ more) (disks ++ others) n request) where
  allowed c known := ⟨join_received_append log more c known.1, known.2⟩
  found c known := known.imp_left (found_active_append log more n c)
  carries := carries_mono request _ _ fun _ _ ⟨files, member, same⟩ => ⟨files, List.mem_append_left others member, same⟩

def WebService.ledger [FileSystem] (id : Ch → JString) (s : WebService Ch) : Ledger Ch WebRequest where
  request n := s.requests[n]?
  names := WebRequest.agents
  paths := WebRequest.paths
  rights log n request := earned id log s.disks n request

structure Accounts [FileSystem] (id : Ch → JString) (s : WebService Ch) : Prop where
  balanced : (s.ledger id).Balanced s.pool
  registered : ∀ key c, s.server.map.lookup key = some c → JoinReceived s.pool.log c
  owned : KeysOwned id s.server

theorem ledger_grows [FileSystem] (id : Ch → JString) (s : WebService Ch) : (s.ledger id).Grows := by
  intro log more n request
  have le := earned_more id log more s.disks [] n request
  rwa [List.append_nil] at le

theorem ledger_more [FileSystem] (id : Ch → JString) (s t : WebService Ch) (added : List WebRequest)
    (others : List (JString → Option Bytes))
    (requests : t.requests = s.requests ++ added) (disks : t.disks = s.disks ++ others) : (s.ledger id).Le (t.ledger id) where
  request n request numbered := by
    simp only [WebService.ledger, requests] at numbered ⊢
    rw [List.getElem?_append_left (List.getElem?_eq_some_iff.mp numbered).1, numbered]
  names := rfl
  paths := rfl
  rights log n request := by
    have le := earned_more id log [] s.disks others n request
    simp only [WebService.ledger, disks]
    rwa [List.append_nil] at le

theorem accounts_start [FileSystem] (id : Ch → JString) : Accounts id (WebService.start : WebService Ch) where
  balanced := ⟨each_supported_nil _, fun _ member => nomatch member⟩
  registered := by simp [WebService.start, Server.start]
  owned := keys_owned_start id

section Runs

variable [DecidableEq Ch]

theorem accounts_read [FileSystem] (id : Ch → JString) (s : WebService Ch) (c : Ch) (msg : Chunk) (accounts : Accounts id s) :
    Accounts id (s.read id c msg) where
  balanced := (s.ledger id).balanced_observed (ledger_grows id s) s.pool (.received c msg.bytes) trivial accounts.balanced
  registered := by
    intro key other found
    simp only [WebService.read] at found ⊢
    cases Server.call_read_cases id s.server c msg with
    | quiet _ _ next =>
        rw [next] at found
        exact join_received_append _ _ _ (accounts.registered key other found)
    | joined joined next =>
        rw [next] at found
        rcases Server.lookup_joined s.server c other _ key found with ⟨_, rfl⟩ | ⟨_, before⟩
        · exact ⟨msg.bytes, by simp, joined_chunk_sent_join id s.server other msg _ joined⟩
        · exact join_received_append _ _ _ (accounts.registered key other before)
  owned := keys_owned_call id s.server (.channelRead0 c msg) accounts.owned

omit [DecidableEq Ch] in
theorem ledger_earns [FileSystem] (id : Ch → JString) (s : WebService Ch) (files : JString → Option Bytes)
    (accounts : Accounts id s)
    (t : WebService Ch) (disks : t.disks = s.disks ++ [files]) : (t.ledger id).Earns (s.env files) s.pool.log where
  grows := ledger_grows id t
  gets more n request element listed c found :=
    ⟨join_received_append _ _ _ (accounts.registered element c found), element, listed, accounts.owned.keys element c found⟩
  checks more n request c checked := .inl (List.mem_append_right _ checked)
  reads more n request path named content file := .inr ⟨path, named, files, by simp [disks], file⟩

omit [DecidableEq Ch] in
theorem accounts_proceed [FileSystem] (id : Ch → JString) (s : WebService Ch) (i : Nat) (files : JString → Option Bytes)
    (accounts : Accounts id s) : Accounts id { s with disks := s.disks ++ [files], pool := s.pool.proceed (s.env files) i } where
  balanced := by
    have kept := Ledger.balanced_more _ _ (ledger_more id s { s with disks := s.disks ++ [files] } [] [files]
      (List.append_nil _).symm rfl) s.pool accounts.balanced
    exact Ledger.balanced_proceed _ (s.env files) s.pool i (ledger_earns id s files accounts _ rfl) kept
  registered := by
    intro key c found
    have joined := accounts.registered key c found
    cases Pool.proceed_cases (s.env files) s.pool i with
    | idle same => rwa [same]
    | taken _ task _ _ _ _ log =>
        rw [log]
        exact join_received_append _ _ _ joined
  owned := accounts.owned

theorem accounts_request [FileSystem] (id : Ch → JString) (secure : Ch → Bool) (s : WebService Ch) (request : WebRequest)
    (accounts : Accounts id s) : Accounts id (s.step id secure (.request request)) where
  balanced := by
    have le := ledger_more id s (s.step id secure (.request request)) [request] [] rfl (List.append_nil _).symm
    apply Ledger.balanced_accepted _ s.pool
    · refine ⟨request, List.getElem?_concat_length, ?_⟩
      exact within_mono request.agents request.paths _ _ _ (rights_earned id _ _ _ request) (request_within secure request)
    · exact Ledger.balanced_more _ _ le s.pool accounts.balanced
  registered := accounts.registered
  owned := accounts.owned

theorem accounts_step [FileSystem] (id : Ch → JString) (secure : Ch → Bool) (s : WebService Ch) (action : ServiceAction Ch)
    (accounts : Accounts id s) : Accounts id (s.step id secure action) := by
  cases action with
  | channelActive c => exact ⟨accounts.balanced, accounts.registered, accounts.owned⟩
  | channelRead0 c msg => exact accounts_read id s c msg accounts
  | close c => exact ⟨accounts.balanced, accounts.registered, accounts.owned⟩
  | channelInactive c =>
      refine ⟨accounts.balanced, fun key other found => ?_, keys_owned_call id s.server (.channelInactive c) accounts.owned⟩
      simp only [WebService.step, Server.call_inactive] at found
      exact accounts.registered key other (Server.lookup_after_inactive s.server c other key found).2
  | request request => exact accounts_request id secure s request accounts
  | proceed i files => exact accounts_proceed id s i files accounts

def reached [FileSystem] (id : Ch → JString) (secure : Ch → Bool) (actions : List (ServiceAction Ch)) : WebService Ch :=
  run (WebService.step id secure) WebService.start actions

theorem accounts_reached [FileSystem] (id : Ch → JString) (secure : Ch → Bool) (actions : List (ServiceAction Ch)) :
    Accounts id (reached id secure actions) :=
  invariant_run (WebService.step id secure) (Accounts id) (accounts_step id secure) WebService.start actions
    (accounts_start id)

end Runs

def watchActions : List (ServiceAction Nat) :=
  [.channelActive 0, .channelRead0 0 chunkA, .request (.frames (.operation ⟨some (ofString "watch"), some [ofString "a(d53f5b8e)"]⟩)),
    .proceed 0 fun _ => none, .proceed 0 fun _ => none, .proceed 0 fun _ => none]

open Unix

noncomputable def ownerOf (id : Ch → JString) (name : JString) : Option Ch :=
  open Classical in if owned : ∃ c data, name = nameOf data (id c) then some owned.choose else none

theorem owner_of_name (id : Ch → JString) (distinct : Function.Injective id) (plain : ∀ c, openParen ∉ id c)
    (data : JString) (c : Ch) : ownerOf id (nameOf data (id c)) = some c := by
  have owned : ∃ d other, nameOf data (id c) = nameOf other (id d) := ⟨c, data, rfl⟩
  obtain ⟨other, same⟩ := owned.choose_spec
  rw [ownerOf, dif_pos owned]
  exact congrArg some (distinct (name_of_id _ _ _ _ (plain _) (plain _) same.symm))

-- One reading of the names serves every registry and every request there can
-- be: a name never comes to mean another connection.
theorem names_are_addresses [FileSystem] [DecidableEq Ch] (id : Ch → JString) (distinct : Function.Injective id)
    (plain : ∀ c, openParen ∉ id c) :
    ∃ owner : JString → Option Ch,
      (∀ calls key c, (run (Server.call id) Server.start calls).map.lookup key = some c → owner key = some c) ∧
      ∀ secure actions n c part buf, .queued n c part buf ∈ (reached id secure actions).pool.log →
        ∃ request, (reached id secure actions).requests[n]? = some request ∧ ∃ element ∈ request.agents, owner element = some c := by
  refine ⟨ownerOf id, fun calls key c found => ?_, fun secure actions n c part buf member => ?_⟩
  · have owned := invariant_run (Server.call id) (KeysOwned id) (keys_owned_call id) Server.start calls (keys_owned_start id)
    obtain ⟨data, rfl⟩ := owned.keys key c found
    exact owner_of_name id distinct plain data c
  · obtain ⟨before, after, split⟩ := List.append_of_mem member
    obtain ⟨request, numbered, ⟨_, element, listed, data, rfl⟩, _⟩ :=
      (accounts_reached id secure actions).balanced.supported before _ after split
    exact ⟨request, numbered, _, listed, owner_of_name id distinct plain data c⟩

theorem pair_names_are_addresses :
    ∃ owner : JString → Option Bool,
      (∀ calls key c, (run (Server.call pairId) Server.start calls).map.lookup key = some c → owner key = some c) ∧
      ∀ secure actions n c part buf, .queued n c part buf ∈ (reached pairId secure actions).pool.log →
        ∃ request, (reached pairId secure actions).requests[n]? = some request ∧
          ∃ element ∈ request.agents, owner element = some c :=
  names_are_addresses pairId (by intro a b; revert a b; decide +kernel) (by decide +kernel)

end Nenes
