import Nenes.JoinGate
import Nenes.Rights
import Nenes.TelnetServerHandler

set_option autoImplicit false

namespace Nenes

open ByteBuf Runs EventLog

variable {Ch : Type} [DecidableEq Ch]

namespace Telnet

def mapped (c : Ch) (telnetMap : ChannelMap Ch) : TelnetEffect → ChannelMap Ch
  | .put key => telnetMap.insert key c
  | .remove key => telnetMap.erase key
  | _ => telnetMap

theorem flush_map (s : Telnet Ch) (c : Ch) : (s.flush c).telnetMap = s.telnetMap := by
  rw [flush]
  split
  · rfl
  · split
    · rfl
    · rfl

theorem handle_map (c : Ch) (effects : List TelnetEffect) (s : Telnet Ch) :
    (s.handle c effects).telnetMap = effects.foldl (mapped c) s.telnetMap := by
  induction effects generalizing s with
  | nil => rfl
  | cons effect rest ih =>
      rw [handle, List.foldl_cons, ← handle, ih, List.foldl_cons]
      cases effect with
      | flush => exact congrArg (rest.foldl (mapped c)) (flush_map s c)
      | _ => rfl

omit [DecidableEq Ch] in
theorem active_map (c : Ch) (id : JString) (hostName : Option JString) (date : JString) (telnetMap : ChannelMap Ch) :
    (TelnetServerHandler.channelActive id hostName date).foldl (mapped c) telnetMap = telnetMap.insert id c := by
  cases hostName with
  | none => rfl
  | some hostName => rfl

theorem sends_kept (observations : List (Observation Ch)) (s : Telnet Ch) :
    (observations.foldl send s).telnetMap = s.telnetMap ∧ (observations.foldl send s).connected = s.connected ∧
      (observations.foldl send s).requests = s.requests ∧ (observations.foldl send s).pool = s.pool := by
  induction observations generalizing s with
  | nil => exact ⟨rfl, rfl, rfl, rfl⟩
  | cons observation rest ih =>
      rw [List.foldl_cons]
      have kept : (send s observation).telnetMap = s.telnetMap ∧ (send s observation).connected = s.connected ∧
          (send s observation).requests = s.requests ∧ (send s observation).pool = s.pool := by
        cases observation with
        | queued n c part buf =>
            rw [send, flush]
            split
            · exact ⟨rfl, rfl, rfl, rfl⟩
            · split
              · exact ⟨rfl, rfl, rfl, rfl⟩
              · exact ⟨rfl, rfl, rfl, rfl⟩
        | _ => exact ⟨rfl, rfl, rfl, rfl⟩
      obtain ⟨telnetMap, connected, requests, pool⟩ := ih (send s observation)
      exact ⟨telnetMap.trans kept.1, connected.trans kept.2.1, requests.trans kept.2.2.1, pool.trans kept.2.2.2⟩

-- What one step makes of the map. Nothing but the two ends of a connection
-- touches it.
def mapAfter (id : Ch → JString) (telnetMap : ChannelMap Ch) : TelnetAction Ch → ChannelMap Ch
  | .channelActive c _ _ => telnetMap.insert (id c) c
  | .channelInactive c => telnetMap.erase (id c)
  | _ => telnetMap

theorem step_map (id : Ch → JString) (s : Telnet Ch) (action : TelnetAction Ch) :
    (s.step id action).telnetMap = mapAfter id s.telnetMap action := by
  cases action with
  | channelActive c hostName date => exact (handle_map c _ _).trans (active_map c (id c) hostName date s.telnetMap)
  | channelRead0 c request => exact handle_map c _ s
  | channelReadComplete c => exact handle_map c _ s
  | exceptionCaught c => exact handle_map c _ s
  | channelInactive c => exact handle_map c _ s
  | close c => rfl
  | command message => rfl
  | ncommand message => rfl
  | proceed i => exact (sends_kept _ _).1

theorem lookup_step (id : Ch → JString) (key : JString) (c : Ch) (s : Telnet Ch) (action : TelnetAction Ch)
    (found : (s.step id action).telnetMap.lookup key = some c) :
    (∃ hostName date, action = .channelActive c hostName date ∧ key = id c) ∨ s.telnetMap.lookup key = some c := by
  rw [step_map] at found
  cases action with
  | channelActive d hostName date =>
      by_cases hit : key = id d
      · subst hit
        rw [mapAfter, Finmap.lookup_insert] at found
        obtain rfl := Option.some.inj found
        exact .inl ⟨hostName, date, rfl, rfl⟩
      · rw [mapAfter, Finmap.lookup_insert_of_ne _ hit] at found
        exact .inr found
  | channelInactive d =>
      by_cases hit : key = id d
      · rw [mapAfter, hit, Finmap.lookup_erase] at found
        cases found
      · rw [mapAfter, Finmap.lookup_erase_ne hit] at found
        exact .inr found
  | _ => exact .inr found

def earned (id : Ch → JString) (connected : List Ch) (log : List (Observation Ch)) (n : Nat) (message : Message) : Rights Ch where
  allowed c := c ∈ connected ∧ id c ∈ message.agent.getD []
  found c := FoundActive log n c
  carries part buf := part = .body ∧ ∃ msg, message.msg = some msg ∧ buf = getBytes (msg ++ lineEnd)

omit [DecidableEq Ch] in
theorem earned_more (id : Ch → JString) (connected others : List Ch) (log more : List (Observation Ch)) (n : Nat)
    (message : Message) : (earned id connected log n message).Le (earned id (connected ++ others) (log ++ more) n message) :=
  ⟨fun _ known => ⟨List.mem_append_left others known.1, known.2⟩, fun c known => found_active_append log more n c known,
    fun _ _ known => known⟩

def ledger (id : Ch → JString) (s : Telnet Ch) : Ledger Ch Message where
  request n := s.requests[n]?
  names message := message.agent.getD []
  paths _ := []
  rights log n message := earned id s.connected log n message

structure Accounts (id : Ch → JString) (s : Telnet Ch) : Prop where
  balanced : (s.ledger id).Balanced s.pool
  registered : ∀ key c, s.telnetMap.lookup key = some c → key = id c ∧ c ∈ s.connected

omit [DecidableEq Ch] in
theorem ledger_grows (id : Ch → JString) (s : Telnet Ch) : (s.ledger id).Grows := by
  intro log more n message
  have le := earned_more id s.connected [] log more n message
  rwa [List.append_nil] at le

omit [DecidableEq Ch] in
theorem ledger_more (id : Ch → JString) (s t : Telnet Ch) (added : List Message) (others : List Ch)
    (requests : t.requests = s.requests ++ added) (connected : t.connected = s.connected ++ others) :
    (s.ledger id).Le (t.ledger id) where
  request n message numbered := by
    simp only [ledger, requests] at numbered ⊢
    rw [List.getElem?_append_left (List.getElem?_eq_some_iff.mp numbered).1, numbered]
  names := rfl
  paths := rfl
  rights log n message := by
    have le := earned_more id s.connected others log [] n message
    simp only [ledger, connected]
    rwa [List.append_nil] at le

omit [DecidableEq Ch] in
theorem send_loop_within (names : List JString) (rights : Rights Ch) (msg : JString) (agentNames : List JString)
    (listed : ∀ element ∈ agentNames, element ∈ names) (line : rights.carries .body (getBytes (msg ++ lineEnd))) :
    Within names [] rights (Command.sendLoop msg agentNames) := by
  induction agentNames generalizing rights with
  | nil => trivial
  | cons element rest ih =>
      obtain ⟨first, later⟩ := List.forall_mem_cons.mp listed
      refine ⟨first, ih rights later line, fun c => ⟨?_, ih (rights.reaching c) later line⟩⟩
      exact ⟨⟨.inr rfl, .inr rfl, line⟩, trivial, ih ((rights.reaching c).finding c) later line⟩

omit [DecidableEq Ch] in
theorem command_within (id : Ch → JString) (connected : List Ch) (log : List (Observation Ch)) (n : Nat) (message : Message) :
    Within (message.agent.getD []) [] (earned id connected log n message) (Command.sendCommand message) := by
  rw [Command.sendCommand]
  split
  · rename_i agentNames msg names text
    exact send_loop_within _ _ msg agentNames (by simp [names]) ⟨rfl, msg, text, rfl⟩
  · trivial

omit [DecidableEq Ch] in
theorem accounts_start (id : Ch → JString) : Accounts id (start : Telnet Ch) where
  balanced := ⟨each_supported_nil _, fun _ member => nomatch member⟩
  registered := by simp [start]

omit [DecidableEq Ch] in
-- The handler's own doings change neither the requests nor what they have done.
theorem accounts_map (id : Ch → JString) (s t : Telnet Ch) (others : List Ch) (accounts : Accounts id s)
    (registered : ∀ key c, t.telnetMap.lookup key = some c → key = id c ∧ c ∈ t.connected)
    (connected : t.connected = s.connected ++ others) (requests : t.requests = s.requests) (pool : t.pool = s.pool) :
    Accounts id t := by
  refine ⟨?_, registered⟩
  rw [pool]
  exact Ledger.balanced_more _ _ (ledger_more id s t [] others (requests.trans (List.append_nil _).symm) connected) s.pool
    accounts.balanced

theorem perform_kept (c : Ch) (s : Telnet Ch) (effect : TelnetEffect) :
    (perform c s effect).connected = s.connected ∧ (perform c s effect).requests = s.requests ∧
      (perform c s effect).pool = s.pool := by
  cases effect with
  | flush =>
      rw [perform, flush]
      split
      · exact ⟨rfl, rfl, rfl⟩
      · split
        · exact ⟨rfl, rfl, rfl⟩
        · exact ⟨rfl, rfl, rfl⟩
  | _ => exact ⟨rfl, rfl, rfl⟩

theorem handle_kept (c : Ch) (effects : List TelnetEffect) (s : Telnet Ch) :
    (s.handle c effects).connected = s.connected ∧ (s.handle c effects).requests = s.requests ∧
      (s.handle c effects).pool = s.pool := by
  induction effects generalizing s with
  | nil => exact ⟨rfl, rfl, rfl⟩
  | cons effect rest ih =>
      obtain ⟨connected, requests, pool⟩ := ih (perform c s effect)
      have kept := perform_kept c s effect
      exact ⟨connected.trans kept.1, requests.trans kept.2.1, pool.trans kept.2.2⟩

omit [DecidableEq Ch] in
theorem accounts_proceed (id : Ch → JString) (s : Telnet Ch) (i : Nat) (accounts : Accounts id s) :
    Accounts id { s with pool := s.pool.proceed s.env i } := by
  have earns : (s.ledger id).Earns s.env s.pool.log := by
    refine ⟨ledger_grows id s, ?_, ?_, ?_⟩
    · intro more n message element listed c found
      obtain ⟨rfl, joined⟩ := accounts.registered element c found
      exact ⟨joined, listed⟩
    · exact fun more n message c checked => List.mem_append_right _ checked
    · exact fun more n message path named => nomatch named
  exact ⟨Ledger.balanced_proceed _ s.env s.pool i earns accounts.balanced, accounts.registered⟩

omit [DecidableEq Ch] in
theorem accounts_accept (id : Ch → JString) (s : Telnet Ch) (message : Message) (accounts : Accounts id s) :
    Accounts id (s.accept message (Command.sendCommand message)) where
  balanced := by
    have le := ledger_more id s (s.accept message (Command.sendCommand message)) [message] [] rfl (List.append_nil _).symm
    apply Ledger.balanced_accepted _ s.pool
    · exact ⟨message, List.getElem?_concat_length, command_within id _ _ _ message⟩
    · exact Ledger.balanced_more _ _ le s.pool accounts.balanced
  registered := accounts.registered

theorem registered_step (id : Ch → JString) (s : Telnet Ch) (action : TelnetAction Ch) (connected : List Ch)
    (kept : ∀ c ∈ s.connected, c ∈ connected) (opened : ∀ c hostName date, action = .channelActive c hostName date → c ∈ connected)
    (registered : ∀ key c, s.telnetMap.lookup key = some c → key = id c ∧ c ∈ s.connected) (key : JString) (c : Ch)
    (found : (s.step id action).telnetMap.lookup key = some c) : key = id c ∧ c ∈ connected := by
  rcases lookup_step id key c s action found with ⟨hostName, date, activates, named⟩ | before
  · exact ⟨named, opened c hostName date activates⟩
  · obtain ⟨named, joined⟩ := registered key c before
    exact ⟨named, kept c joined⟩

theorem accounts_step (id : Ch → JString) (s : Telnet Ch) (action : TelnetAction Ch) (accounts : Accounts id s) :
    Accounts id (s.step id action) := by
  have registered := registered_step id s action
  have handled : ∀ (c : Ch) (effects : List TelnetEffect), s.step id action = s.handle c effects →
      (∀ c hostName date, action ≠ .channelActive c hostName date) → Accounts id (s.step id action) := by
    intro c effects same unopened
    obtain ⟨connected, requests, pool⟩ := handle_kept c effects s
    rw [← same] at connected requests pool
    refine accounts_map id s _ [] accounts ?_ (connected.trans (List.append_nil _).symm) requests pool
    rw [connected]
    exact registered s.connected (fun _ joined => joined) (fun c hostName date opened => absurd opened (unopened c hostName date))
      accounts.registered
  cases action with
  | channelActive c hostName date =>
      obtain ⟨connected, requests, pool⟩ := handle_kept c (TelnetServerHandler.channelActive (id c) hostName date)
        { s with active := Function.update s.active c true, connected := s.connected ++ [c] }
      refine accounts_map id s _ [c] accounts ?_ connected requests pool
      rw [step, connected]
      apply registered (s.connected ++ [c]) (fun _ joined => List.mem_append_left [c] joined) _ accounts.registered
      intro d _ _ opened
      cases opened
      exact List.mem_append_right _ (List.mem_singleton.mpr rfl)
  | channelInactive c => exact handled c _ rfl (by simp)
  | channelRead0 c request => exact handled c _ rfl (by simp)
  | channelReadComplete c => exact handled c _ rfl (by simp)
  | exceptionCaught c => exact handled c _ rfl (by simp)
  | close c => exact ⟨accounts.balanced, accounts.registered⟩
  | command message => exact accounts_accept id s message accounts
  | ncommand message => exact accounts_accept id s message accounts
  | proceed i =>
      have next := accounts_proceed id s i accounts
      obtain ⟨telnetMap, connected, requests, pool⟩ :=
        sends_kept ((s.pool.proceed s.env i).log.drop s.pool.log.length) { s with pool := s.pool.proceed s.env i }
      refine accounts_map id _ _ [] next ?_ (connected.trans (List.append_nil _).symm) requests pool
      rw [step, telnetMap, connected]
      exact next.registered

def lineOf : TelnetEffect → Option TelnetLine
  | .write text listener => some ⟨getBytes text, listener, none⟩
  | _ => none

def isOwn (line : TelnetLine) : Bool := line.request = none

theorem flush_written (s : Telnet Ch) (c d : Ch) : (s.flush c).written d = s.written d := by
  rw [flush]
  split
  · rfl
  · split
    · rfl
    · rfl

theorem perform_written (c d : Ch) (s : Telnet Ch) (effect : TelnetEffect) :
    (perform c s effect).written d = s.written d ++ if c = d then (lineOf effect).toList else [] := by
  cases effect with
  | write text listener =>
      by_cases same : c = d
      · subst same
        simp [perform, write, lineOf]
      · simp [perform, write, same, Function.update_of_ne (Ne.symm same)]
  | flush => exact (flush_written s c d).trans (by simp [lineOf])
  | _ => simp [perform, close, lineOf]

theorem handle_written (c d : Ch) (effects : List TelnetEffect) (s : Telnet Ch) :
    (s.handle c effects).written d = s.written d ++ if c = d then effects.filterMap lineOf else [] := by
  induction effects generalizing s with
  | nil => simp [handle]
  | cons effect rest ih =>
      rw [handle, List.foldl_cons, ← handle, ih, perform_written]
      by_cases same : c = d
      · cases line : lineOf effect with
        | none => simp [same, line]
        | some text => simp [same, line]
      · simp [same]

theorem filter_own_lines (effects : List TelnetEffect) : (effects.filterMap lineOf).filter isOwn = effects.filterMap lineOf := by
  rw [List.filter_eq_self]
  intro line member
  obtain ⟨effect, _, same⟩ := List.mem_filterMap.mp member
  cases effect with
  | write text listener =>
      cases same
      rfl
  | _ => cases same

def lineTo (c : Ch) : Observation Ch → Option TelnetLine
  | .queued n d _ buf => if d = c then some ⟨buf, false, some n⟩ else none
  | _ => none

def isSent (line : TelnetLine) : Bool := !isOwn line

theorem handle_sent (c d : Ch) (effects : List TelnetEffect) (s : Telnet Ch) :
    ((s.handle c effects).written d).filter isSent = (s.written d).filter isSent := by
  have none : (effects.filterMap lineOf).filter isSent = [] := by
    rw [← filter_own_lines, List.filter_filter]
    simp [isSent]
  rw [handle_written, List.filter_append]
  by_cases same : c = d
  · simp [same, none]
  · simp [same]

theorem sends_sent (observations : List (Observation Ch)) (s : Telnet Ch) (c : Ch) :
    ((observations.foldl send s).written c).filter isSent = (s.written c).filter isSent ++ observations.filterMap (lineTo c) := by
  induction observations generalizing s with
  | nil => exact (List.append_nil _).symm
  | cons observation rest ih =>
      rw [List.foldl_cons, ih]
      cases observation with
      | queued n d part buf =>
          rw [send, flush_written, write]
          by_cases same : d = c
          · subst same
            simp [isSent, isOwn, lineTo]
          · simp [Function.update_of_ne (Ne.symm same), lineTo, same]
      | _ => rfl

-- What a channel is sent is what the commands have logged for it, line by line.
def SendsItsLog (s : Telnet Ch) : Prop := ∀ c, (s.written c).filter isSent = s.pool.log.filterMap (lineTo c)

theorem sends_its_log_step (id : Ch → JString) (s : Telnet Ch) (action : TelnetAction Ch) (sends : SendsItsLog s) :
    SendsItsLog (s.step id action) := by
  intro c
  cases action with
  | channelActive _ _ _ | channelRead0 _ _ | channelReadComplete _ | exceptionCaught _ | channelInactive _ =>
      rw [step, handle_sent, (handle_kept _ _ _).2.2]
      exact sends c
  | close _ | command _ | ncommand _ => exact sends c
  | proceed i =>
      rw [step, sends_sent, (sends_kept _ _).2.2.2]
      cases Pool.proceed_cases s.env s.pool i with
      | idle same =>
          simp only [same, List.drop_length, List.filterMap_nil, List.append_nil]
          exact sends c
      | taken left task right _ _ _ log =>
          simp only [log, List.drop_left, List.filterMap_append]
          exact congrArg (· ++ _) (sends c)

-- Each line a command sends is its own text, and goes to a connection that the
-- form named by its id, that telnet has seen connect, and that was found active.
theorem telnet_lines_accounted (id : Ch → JString) (actions : List (TelnetAction Ch)) :
    SendsItsLog (run (step id) start actions) ∧
      EachSupported ((run (step id) start actions).ledger id).Accounted (run (step id) start actions).pool.log :=
  ⟨invariant_run (step id) SendsItsLog (sends_its_log_step id) start actions fun _ => rfl,
    (invariant_run (step id) (Accounts id) (accounts_step id) start actions (accounts_start id)).balanced.supported⟩

end Telnet

end Nenes
