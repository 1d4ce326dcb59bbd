import Nenes.Isolation
import Nenes.ListedAgents
import Nenes.Pages
import Nenes.RequestShares

set_option autoImplicit false

namespace Nenes

open ByteBuf Runs OperationServerHandler Threads

variable {Ch : Type} [DecidableEq Ch]

-- What one program of the request still owes the agent, as the one thread it is.
def Owed [FileSystem] (steady : Steady Ch) (request : FrameRequest) (program : Program Ch)
    (threads : Multiset (Thread (Part × Bytes))) : Prop :=
  ∃ thread, threads = {thread} ∧ Owes steady (WebRequest.frames request).agents (WebRequest.frames request).paths program thread

-- What has been written to the agent is a trace of the request's thread, and what
-- that leaves is what its program and its listeners owe.
structure Serving [FileSystem] (steady : Steady Ch) (request : FrameRequest) (n : Nat) (s : WebService Ch) : Prop where
  accepted : n < s.requests.length
  trace : ∃ rest, Shared (Owed steady request) n s.pool.tasks rest ∧
    Trace {steady.thread request} (writtenTo n steady.channel s.pool.log) rest

theorem written_append (n : Nat) (c : Ch) (a b : List (Observation Ch)) : writtenTo n c (a ++ b) = writtenTo n c a ++ writtenTo n c b :=
  List.filterMap_append

theorem others_write_nothing (env : Env Ch) (n m : Nat) (c : Ch) (program : Program Ch) (other : m ≠ n) :
    writtenTo n c (program.observed env m) = [] := by
  cases program with
  | writeAndFlush d part buf listener next => simp [writtenTo, Program.observed, writtenBy, other]
  | _ => rfl

theorem uncalled_writes_nothing (env : Env Ch) (n i : Nat) (c : Ch) (pool : Pool Ch)
    (uncalled : ∀ program, pool.tasks[i]? ≠ some ⟨n, program⟩) : writtenTo n c (pool.proceed env i).log = writtenTo n c pool.log := by
  cases found : pool.tasks[i]? with
  | none => rw [Pool.proceed, found]
  | some task =>
      have other : task.request ≠ n := fun same => uncalled task.program (by rw [found, ← same])
      rw [Pool.proceed, found, written_append, others_write_nothing env n task.request c task.program other, List.append_nil]

theorem silent_listeners [FileSystem] (steady : Steady Ch) (request : FrameRequest) (n : Nat) (listeners : List (Program Ch))
    (silent : ∀ listener ∈ listeners,
      Owes steady (WebRequest.frames request).agents (WebRequest.frames request).paths listener .done) :
    Shared (Owed steady request) n (listeners.map (Task.mk n)) (Multiset.replicate listeners.length .done) := by
  induction listeners with
  | nil => rfl
  | cons listener rest ih =>
      obtain ⟨first, later⟩ := List.forall_mem_cons.mp silent
      rw [List.map_cons, Shared, if_pos rfl]
      exact ⟨{.done}, _, Multiset.replicate_succ _ _, ⟨.done, rfl, first⟩, ih later⟩

-- A call of the request's own: it writes what its thread has next, or nothing.
theorem serving_call [FileSystem] (steady : Steady Ch) (request : FrameRequest) (n i : Nat) (env : Env Ch)
    (stays : steady.Stays request env) (pool : Pool Ch) (program : Program Ch) (called : pool.tasks[i]? = some ⟨n, program⟩)
    (threads : Multiset (Thread (Part × Bytes))) (shared : Shared (Owed steady request) n pool.tasks threads)
    (trace : Trace {steady.thread request} (writtenTo n steady.channel pool.log) threads) :
    ∃ rest, Shared (Owed steady request) n (pool.proceed env i).tasks rest ∧
      Trace {steady.thread request} (writtenTo n steady.channel (pool.proceed env i).log) rest := by
  obtain ⟨_, others, rfl, ⟨thread, rfl, owes⟩, again⟩ :=
    shared_called env n i (Owed steady request) pool program threads called shared
  have log : (pool.proceed env i).log = pool.log ++ program.observed env n := by rw [Pool.proceed, called]
  rw [log, written_append]
  cases call_owes steady request env stays program thread owes with
  | keeps silent next listeners =>
      refine ⟨_, again {thread} _ ⟨thread, rfl, next⟩ (silent_listeners steady request n program.listeners listeners), ?_⟩
      rw [silent n, List.append_nil, add_right_comm, add_comm]
      exact trace_ended _ _ _ _ trace
  | writes part buf listener next after onward call owed listens goesOn =>
      subst call owed
      refine ⟨_, again {onward} {after} ⟨onward, rfl, goesOn⟩ ((shared_one _ n listener _).mpr ⟨after, rfl, listens⟩), ?_⟩
      have written : writtenTo n steady.channel ((Program.writeAndFlush steady.channel part buf listener next).observed env n) =
          [(part, buf)] := by simp [writtenTo, Program.observed, writtenBy]
      rw [written, add_assoc, Multiset.singleton_add, Multiset.singleton_add]
      exact trace.written _ _ _ _ _

def Allows [FileSystem] (steady : Steady Ch) (request : FrameRequest) (n : Nat) (s : WebService Ch) : ServiceAction Ch → Prop
  | .proceed i files => (s.pool.tasks[i]?).map Task.request = some n → steady.Stays request (s.env files)
  | _ => True

theorem serving_step [FileSystem] (id : Ch → JString) (secure : Ch → Bool) (steady : Steady Ch) (request : FrameRequest)
    (n : Nat) (s : WebService Ch) (action : ServiceAction Ch) (serving : Serving steady request n s)
    (allowed : Allows steady request n s action) : Serving steady request n (s.step id secure action) := by
  obtain ⟨threads, shared, trace⟩ := serving.trace
  cases action with
  | channelActive c => exact ⟨serving.accepted, threads, shared, trace⟩
  | channelRead0 c msg =>
      refine ⟨serving.accepted, threads, shared, ?_⟩
      rw [WebService.step, WebService.read, written_append]
      rwa [show writtenTo n steady.channel [.received c msg.bytes] = [] from rfl, List.append_nil]
  | close c => exact ⟨serving.accepted, threads, shared, trace⟩
  | channelInactive c => exact ⟨serving.accepted, threads, shared, trace⟩
  | request other =>
      refine ⟨?_, threads, (shared_append _ n s.pool.tasks _ threads).mpr ⟨threads, 0, (add_zero threads).symm, shared, ?_⟩, trace⟩
      · simp only [WebService.step, List.length_append]
        exact Nat.lt_add_right _ serving.accepted
      · exact shared_others _ n _ (by simpa using Nat.ne_of_gt serving.accepted)
  | proceed i files =>
      refine ⟨serving.accepted, ?_⟩
      by_cases called : ∃ program, s.pool.tasks[i]? = some ⟨n, program⟩
      · obtain ⟨program, called⟩ := called
        have stays : steady.Stays request (s.env files) := allowed (by rw [called]; rfl)
        exact serving_call steady request n i (s.env files) stays s.pool program called threads shared trace
      · have uncalled := not_exists.mp called
        refine ⟨threads, shared_uncalled (s.env files) n i _ s.pool threads uncalled shared, ?_⟩
        rwa [WebService.step, uncalled_writes_nothing (s.env files) n i steady.channel s.pool uncalled]

theorem finished_threads [FileSystem] (steady : Steady Ch) (request : FrameRequest) (n : Nat) (tasks : List (Task Ch))
    (threads : Multiset (Thread (Part × Bytes))) (finished : ∀ task ∈ tasks, task.request = n → task.program.isDone = true)
    (shared : Shared (Owed steady request) n tasks threads) : ∀ thread ∈ threads, thread = .done := by
  induction tasks generalizing threads with
  | nil =>
      obtain rfl : threads = 0 := shared
      exact fun _ member => absurd member (Multiset.notMem_zero _)
  | cons task rest ih =>
      obtain ⟨first, later⟩ := List.forall_mem_cons.mp finished
      rw [Shared] at shared
      split at shared
      · rename_i own
        obtain ⟨_, others, rfl, ⟨ended, rfl, owes⟩, shared⟩ := shared
        intro thread member
        rcases Multiset.mem_add.mp member with one | other
        · obtain rfl := Multiset.mem_singleton.mp one
          rcases program_done task.program (first own) with done | ⟨exception, raised⟩
          · rwa [done] at owes
          · rwa [raised] at owes
        · exact ih others later shared thread other
      · exact ih threads later shared

theorem unwritten_number [FileSystem] (id : Ch → JString) (s : WebService Ch) (accounts : Accounts id s) (n : Nat) (c : Ch)
    (unused : s.requests.length ≤ n) : writtenTo n c s.pool.log = [] := by
  rw [writtenTo, List.filterMap_eq_nil_iff]
  intro observation member
  obtain ⟨before, after, split⟩ := List.append_of_mem member
  cases observation with
  | queued m d part buf =>
      obtain ⟨request, numbered, _⟩ := accounts.balanced.supported before _ after split
      have inside := (List.getElem?_eq_some_iff.mp numbered).1
      have other : m ≠ n := by omega
      simp [writtenBy, other]
  | _ => rfl

theorem serving_begins [FileSystem] (id : Ch → JString) (secure : Ch → Bool) (steady : Steady Ch) (request : FrameRequest)
    (s : WebService Ch)
    (accounts : Accounts id s) : Serving steady request s.requests.length (s.step id secure (.request (.frames request))) := by
  refine ⟨by simp [WebService.step], {steady.thread request}, ?_, ?_⟩
  · refine (shared_append _ _ s.pool.tasks _ _).mpr ⟨0, _, (zero_add _).symm, ?_, ?_⟩
    · apply shared_others
      intro task member same
      obtain ⟨other, listed, _⟩ := accounts.balanced.within task member
      have inside := (List.getElem?_eq_some_iff.mp listed).1
      omega
    · exact (shared_one _ _ _ _).mpr ⟨_, rfl, request_owes steady request⟩
  · rw [WebService.step, unwritten_number id s accounts s.requests.length steady.channel (Nat.le_refl _)]
    exact .start

structure Served [FileSystem] (steady : Steady Ch) (request : FrameRequest) (n : Nat) (s : WebService Ch) : Prop where
  onTheWay : InOrder request (steady.frames request) (writtenTo n steady.channel s.pool.log)
  finished : (∀ task ∈ s.pool.tasks, task.request = n → task.program.isDone = true) →
    (writtenTo n steady.channel s.pool.log).Perm ((steady.frames request).flatMap AgentFrame.writes)

theorem serving_served [FileSystem] (steady : Steady Ch) (request : FrameRequest) (n : Nat) (s : WebService Ch)
    (serving : Serving steady request n s) : Served steady request n s := by
  obtain ⟨threads, shared, trace⟩ := serving.trace
  refine ⟨trace_in_order steady request _ threads trace, fun finished => ?_⟩
  exact trace_whole steady request _ threads trace (finished_threads steady request n _ threads finished shared)

def Page.number (page : Page) : Option Nat :=
  match page.stage with
  | .sending n => some n
  | _ => none

-- At the request's own calls the agent is where it was; in between it may be away.
def StaysAt [FileSystem] (steady : Steady Ch) (request : FrameRequest) (p : Nat) (s : Pages Ch) : PageAction Ch → Prop
  | .service (.proceed i files) =>
      ∀ n ∈ (s.pages[p]?).bind Page.number, (s.service.pool.tasks[i]?).map Task.request = some n →
        steady.Stays request (s.service.env files)
  | _ => True

instance [FileSystem] (steady : Steady Ch) (request : FrameRequest) (p : Nat) (s : Pages Ch) :
    ∀ action, Decidable (StaysAt steady request p s action)
  | .service (.proceed i files) =>
      inferInstanceAs (Decidable (∀ n ∈ (s.pages[p]?).bind Page.number, (s.service.pool.tasks[i]?).map Task.request = some n →
        steady.Stays request (s.service.env files)))
  | .service (.channelActive _) => isTrue trivial
  | .service (.channelRead0 _ _) => isTrue trivial
  | .service (.close _) => isTrue trivial
  | .service (.channelInactive _) => isTrue trivial
  | .service (.request _) => isTrue trivial
  | .next _ => isTrue trivial

-- A listing goes on or has ended because the registry's keys have changed since
-- the page was opened; and what sends does so whole.
inductive StageServed (sends : Nat → Prop) (opened modCount : Nat) : PageStage → Prop where
  | listing (remaining : Nat) : StageServed sends opened modCount (.listing opened remaining)
  | cut (changed : opened < modCount) : StageServed sends opened modCount .cut
  | sending (n : Nat) (served : sends n) : StageServed sends opened modCount (.sending n)

def PageServed [FileSystem] (steady : Steady Ch) (request : FrameRequest) (p opened : Nat) (s : Pages Ch) : Prop :=
  ∃ stage, s.pages[p]? = some ⟨.frames request, stage⟩ ∧
    StageServed (fun n => Served steady request n s.service) opened s.modCount stage

structure PageServing [FileSystem] (id : Ch → JString) (steady : Steady Ch) (request : FrameRequest) (p opened : Nat)
    (s : Pages Ch) : Prop where
  accounts : Accounts id s.service
  since : opened ≤ s.modCount
  page : ∃ stage, s.pages[p]? = some ⟨.frames request, stage⟩ ∧
    StageServed (fun n => Serving steady request n s.service) opened s.modCount stage

theorem stage_served_mono (sends more : Nat → Prop) (opened modCount later : Nat) (le : modCount ≤ later) (stage : PageStage)
    (mono : ∀ n, stage = .sending n → sends n → more n) (served : StageServed sends opened modCount stage) :
    StageServed more opened later stage := by
  cases served with
  | listing remaining => exact .listing remaining
  | cut changed => exact .cut (Nat.lt_of_lt_of_le changed le)
  | sending n served => exact .sending n (mono n rfl served)

theorem serving_meant [FileSystem] (id : Ch → JString) (secure : Ch → Bool) (steady : Steady Ch) (request : FrameRequest)
    (p n : Nat) (s : Pages Ch) (action : PageAction Ch) (present : s.pages[p]? = some ⟨.frames request, .sending n⟩)
    (serving : Serving steady request n s.service) (stays : StaysAt steady request p s action) :
    Serving steady request n (s.step id secure action).service := by
  apply meant_step id secure s action (Serving steady request n) serving
  · rintro one rfl
    apply serving_step id secure steady request n s.service one serving
    cases one with
    | proceed i files => exact fun called => stays n (by rw [present]; rfl) called
    | _ => trivial
  · exact fun other => serving_step id secure steady request n s.service (.request other) serving trivial

theorem page_serving_step [FileSystem] (id : Ch → JString) (secure : Ch → Bool) (steady : Steady Ch) (request : FrameRequest)
    (p opened : Nat) (s : Pages Ch) (action : PageAction Ch) (serving : PageServing id steady request p opened s)
    (stays : StaysAt steady request p s action) : PageServing id steady request p opened (s.step id secure action) := by
  have later := Pages.mod_count_step id secure s action
  refine ⟨?_, Nat.le_trans serving.since later, ?_⟩
  · exact invariant_run (WebService.step id secure) (Accounts id) (accounts_step id secure) _ (s.meaning action) serving.accounts
  obtain ⟨stage, present, served⟩ := serving.page
  have kept : ∀ stage, s.pages[p]? = some ⟨.frames request, stage⟩ →
      StageServed (fun n => Serving steady request n s.service) opened s.modCount stage →
        StageServed (fun n => Serving steady request n (s.step id secure action).service) opened
          (s.step id secure action).modCount stage := by
    intro stage present served
    apply stage_served_mono _ _ opened _ _ later stage _ served
    rintro n rfl serving
    exact serving_meant id secure steady request p n s action present serving stays
  obtain ⟨rfl, turned⟩ | ⟨_, same⟩ := page_kept id secure s action p _ present
  · refine ⟨_, turned, ?_⟩
    cases served with
    | listing remaining =>
        cases remaining with
        | zero =>
            have begun : (s.step id secure (.next p)).service = s.service.step id secure (.request (.frames request)) := by
              simp [Pages.step, Pages.meaning, present, Page.begins]
            refine .sending _ ?_
            rw [begun]
            exact serving_begins id secure steady request s.service serving.accounts
        | succ remaining =>
            simp only [PageStage.next]
            split
            · exact .listing remaining
            · rename_i changed
              exact .cut (Nat.lt_of_lt_of_le (Nat.lt_of_le_of_ne serving.since (Ne.symm changed)) later)
    | cut changed => exact kept .cut present (.cut changed)
    | sending n serving => exact kept (.sending n) present (.sending n serving)
  · exact ⟨stage, same, kept stage present served⟩

theorem page_opened [FileSystem] (id : Ch → JString) (secure : Ch → Bool) (steady : Steady Ch) (request : FrameRequest)
    (before : List (PageAction Ch)) :
    PageServing id steady request (reachedPages id secure before).pages.length (reachedPages id secure before).modCount
      (reachedPages id secure (before ++ [.service (.request (.frames request))])) := by
  have accounts : Accounts id (reachedPages id secure before).service := by
    rw [reachedPages, pages_service]
    exact accounts_reached id secure _
  rw [reached_pages_step]
  refine ⟨?_, Pages.mod_count_step id secure _ _, _, List.getElem?_concat_length, ?_⟩
  · exact invariant_run (WebService.step id secure) (Accounts id) (accounts_step id secure) _
      ((reachedPages id secure before).meaning _) accounts
  split
  · exact .listing _
  · rename_i sends
    refine .sending _ ?_
    rw [Pages.step, Pages.meaning, if_neg sends]
    exact serving_begins id secure steady request _ accounts

theorem served_along [FileSystem] (id : Ch → JString) (secure : Ch → Bool) (steady : Steady Ch) (request : FrameRequest)
    (p opened : Nat) (s : Pages Ch) (serving : PageServing id steady request p opened s) (actions : List (PageAction Ch))
    (stays : Along (Pages.step id secure) (StaysAt steady request p) s actions) :
    PageServed steady request p opened (run (Pages.step id secure) s actions) := by
  have kept := invariant_along (Pages.step id secure) _ _
    (fun s action serving stays => page_serving_step id secure steady request p opened s action serving stays) s actions serving stays
  obtain ⟨stage, present, served⟩ := kept.page
  refine ⟨stage, present, ?_⟩
  exact stage_served_mono _ _ opened _ _ (Nat.le_refl _) stage (fun n _ => serving_served steady request n _) served

-- While agents come and go and other requests run, a request that gets past its
-- listing writes to an agent it finds exactly what it would write to it alone.
theorem listed_agent_served [FileSystem] (id : Ch → JString) (secure : Ch → Bool) (steady : Steady Ch) (request : FrameRequest)
    (before after : List (PageAction Ch))
    (stays : Along (Pages.step id secure) (StaysAt steady request (reachedPages id secure before).pages.length)
      (reachedPages id secure (before ++ [.service (.request (.frames request))])) after) :
    PageServed steady request (reachedPages id secure before).pages.length (reachedPages id secure before).modCount
      (reachedPages id secure (before ++ .service (.request (.frames request)) :: after)) := by
  rw [reached_pages_run]
  exact served_along id secure steady request _ _ _ (page_opened id secure steady request before) after stays

def bothAgents : List (PageAction Bool) :=
  [.service (.channelActive false), .service (.channelActive true), .service (.channelRead0 false chunkA),
    .service (.channelRead0 true chunkB)]

def lsRequest : FrameRequest := .noperation ⟨some (ofString "ls"), some [ofString "b(0c1a77f2)", ofString "a(d53f5b8e)"]⟩

-- The request lists both agents. The other one leaves between its lookup and the
-- question whether it is open, which cuts a second request's listing off.
def leavingAgent : List (PageAction Bool) :=
  [.next 0, .next 0, .next 0, .service (.proceed 0 fun _ => none), .service (.request (.frames lsRequest)), .service (.close true),
    .service (.channelInactive true), .next 1, .service (.proceed 0 fun _ => none), .service (.proceed 0 fun _ => none),
    .service (.proceed 0 fun _ => none), .service (.proceed 0 fun _ => none), .service (.proceed 0 fun _ => none)]

open Unix

example : (reachedPages pairId (fun _ => true) (bothAgents ++ .service (.request (.frames lsRequest)) :: leavingAgent)).pages.map
    Page.stage = [.sending 0, .cut] := by decide +kernel

theorem staying_agent_served :
    PageServed ⟨ofString "a(d53f5b8e)", false, fun _ => none⟩ lsRequest
      (reachedPages pairId (fun _ => true) bothAgents).pages.length (reachedPages pairId (fun _ => true) bothAgents).modCount
      (reachedPages pairId (fun _ => true) (bothAgents ++ .service (.request (.frames lsRequest)) :: leavingAgent)) :=
  listed_agent_served pairId (fun _ => true) ⟨ofString "a(d53f5b8e)", false, fun _ => none⟩ lsRequest bothAgents leavingAgent
    (by decide +kernel)

-- The agent sends nothing and is not closed, and the request finds the files as
-- they were.
def LeavesAlone [FileSystem] (steady : Steady Ch) (request : FrameRequest) : PageAction Ch → Prop
  | .service (.channelRead0 c _) => c ≠ steady.channel
  | .service (.close c) => c ≠ steady.channel
  | .service (.channelInactive c) => c ≠ steady.channel
  | .service (.proceed _ files) => ∀ path ∈ (WebRequest.frames request).paths, files path = steady.files path
  | .service (.channelActive _) => True
  | .service (.request _) => True
  | .next _ => True

instance [FileSystem] (steady : Steady Ch) (request : FrameRequest) : ∀ action, Decidable (LeavesAlone steady request action)
  | .service (.channelRead0 c _) => inferInstanceAs (Decidable (c ≠ steady.channel))
  | .service (.close c) => inferInstanceAs (Decidable (c ≠ steady.channel))
  | .service (.channelInactive c) => inferInstanceAs (Decidable (c ≠ steady.channel))
  | .service (.proceed _ files) =>
      inferInstanceAs (Decidable (∀ path ∈ (WebRequest.frames request).paths, files path = steady.files path))
  | .service (.channelActive _) => isTrue trivial
  | .service (.request _) => isTrue trivial
  | .next _ => isTrue trivial

structure KeepsEntries (id : Ch → JString) (c : Ch) (keys : JString → Prop) (s : WebService Ch) : Prop where
  owned : KeysOwned id s.server
  entries : ∀ key, s.server.map.lookup key = some c ↔ keys key
  active : s.active c = true

theorem keeps_entries_call (id : Ch → JString) (distinct : Function.Injective id) (plain : ∀ c, openParen ∉ id c) (c : Ch)
    (keys : JString → Prop) (s : WebService Ch) (action : Call Ch) (kept : KeepsEntries id c keys s)
    (different : action.channel ≠ c) :
    KeepsEntries id c keys { s with server := Server.call id s.server action } where
  owned := keys_owned_call id s.server action kept.owned
  entries key := (other_call_keeps_entries id distinct plain s.server kept.owned c action different key).trans (kept.entries key)
  active := kept.active

theorem keeps_entries_step [FileSystem] (id : Ch → JString) (secure : Ch → Bool) (distinct : Function.Injective id)
    (plain : ∀ c, openParen ∉ id c) (steady : Steady Ch) (request : FrameRequest) (keys : JString → Prop) (s : WebService Ch)
    (action : ServiceAction Ch) (kept : KeepsEntries id steady.channel keys s)
    (away : LeavesAlone steady request (.service action)) :
    KeepsEntries id steady.channel keys (s.step id secure action) := by
  cases action with
  | channelActive c =>
      refine ⟨kept.owned, kept.entries, ?_⟩
      simp only [WebService.step]
      by_cases same : steady.channel = c
      · rw [same]
        exact Function.update_self c true s.active
      · exact (Function.update_of_ne same true s.active).trans kept.active
  | channelRead0 c msg =>
      have read := keeps_entries_call id distinct plain steady.channel keys s (.channelRead0 c msg) kept away
      exact ⟨read.owned, read.entries, kept.active⟩
  | close c =>
      have different : steady.channel ≠ c := Ne.symm away
      refine ⟨kept.owned, kept.entries, ?_⟩
      simp only [WebService.step]
      exact (Function.update_of_ne different false s.active).trans kept.active
  | channelInactive c => exact keeps_entries_call id distinct plain steady.channel keys s (.channelInactive c) kept away
  | request other => exact ⟨kept.owned, kept.entries, kept.active⟩
  | proceed i files => exact ⟨kept.owned, kept.entries, kept.active⟩

theorem keeps_entries_meant [FileSystem] (id : Ch → JString) (secure : Ch → Bool) (distinct : Function.Injective id)
    (plain : ∀ c, openParen ∉ id c) (steady : Steady Ch) (request : FrameRequest) (keys : JString → Prop) (s : Pages Ch)
    (action : PageAction Ch) (kept : KeepsEntries id steady.channel keys s.service) (away : LeavesAlone steady request action) :
    KeepsEntries id steady.channel keys (s.step id secure action).service := by
  apply meant_step id secure s action (KeepsEntries id steady.channel keys) kept
  · rintro one rfl
    exact keeps_entries_step id secure distinct plain steady request keys s.service one kept away
  · exact fun other => keeps_entries_step id secure distinct plain steady request keys s.service (.request other) kept trivial

end Nenes
