import Mathlib.Tactic.Ring
import Nenes.AccountedWrites
import Nenes.Base.Potential
import Nenes.Pages
import Nenes.RequestShares

set_option autoImplicit false

namespace Nenes

open ByteBuf Runs

variable {Ch : Type}

-- Whatever it is answered, the program and its listeners make at most that many
-- calls.
def Costs : Program Ch → Nat → Prop
  | .done, _ => True
  | .raise _, _ => True
  | .get _ next, k => ∃ j, j < k ∧ ∀ found, Costs (next found) j
  | .isActive _ next, k => ∃ j, j < k ∧ ∀ answer, Costs (next answer) j
  | .read _ next, k => ∃ j, j < k ∧ ∀ file, Costs (next file) j
  | .publishEvent _ next, k => ∃ j, j < k ∧ Costs next j
  | .writeAndFlush _ _ _ listener next, k => ∃ a b, a + b < k ∧ Costs listener a ∧ Costs next b

theorem costs_more (program : Program Ch) (k more : Nat) (le : k ≤ more) (costs : Costs program k) : Costs program more := by
  cases program with
  | done => trivial
  | raise exception => trivial
  | get element next =>
      obtain ⟨j, less, rest⟩ := costs
      exact ⟨j, Nat.lt_of_lt_of_le less le, rest⟩
  | isActive c next =>
      obtain ⟨j, less, rest⟩ := costs
      exact ⟨j, Nat.lt_of_lt_of_le less le, rest⟩
  | read path next =>
      obtain ⟨j, less, rest⟩ := costs
      exact ⟨j, Nat.lt_of_lt_of_le less le, rest⟩
  | publishEvent data next =>
      obtain ⟨j, less, rest⟩ := costs
      exact ⟨j, Nat.lt_of_lt_of_le less le, rest⟩
  | writeAndFlush c part buf listener next =>
      obtain ⟨a, b, less, rest⟩ := costs
      exact ⟨a, b, Nat.lt_of_lt_of_le less le, rest⟩

theorem finished_call (env : Env Ch) (program : Program Ch) (finished : program.isDone = true) :
    program.next env = program ∧ program.listeners = [] := by
  cases program with
  | done => exact ⟨rfl, rfl⟩
  | raise exception => exact ⟨rfl, rfl⟩
  | _ => cases finished

-- A call leaves less for what follows it and its listener together.
theorem call_costs (env : Env Ch) (n : Nat) (program : Program Ch) (k : Nat) (unfinished : program.isDone = false)
    (costs : Costs program k) :
    ∃ a b, a + b < k ∧ Costs (program.next env) a ∧ Shared Costs n (program.listeners.map (Task.mk n)) b := by
  cases program with
  | done => cases unfinished
  | raise exception => cases unfinished
  | get element next =>
      obtain ⟨j, less, rest⟩ := costs
      exact ⟨j, 0, less, rest _, rfl⟩
  | isActive c next =>
      obtain ⟨j, less, rest⟩ := costs
      exact ⟨j, 0, less, rest _, rfl⟩
  | read path next =>
      obtain ⟨j, less, rest⟩ := costs
      exact ⟨j, 0, less, rest _, rfl⟩
  | publishEvent data next =>
      obtain ⟨j, less, rest⟩ := costs
      exact ⟨j, 0, less, rest, rfl⟩
  | writeAndFlush c part buf listener next =>
      obtain ⟨a, b, less, first, rest⟩ := costs
      exact ⟨b, a, by omega, rest, (shared_one Costs n listener a).mpr first⟩

def SpendsCall (program : Program Ch) (paid : Nat) : Prop := program.isDone = false → 0 < paid

theorem costs_pass_on (env : Env Ch) (n : Nat) : PassesOn env n Costs (SpendsCall : Program Ch → Nat → Prop) := by
  intro program k costs
  cases done : program.isDone with
  | true =>
      obtain ⟨next, listeners⟩ := finished_call env program done
      refine ⟨0, k, 0, by omega, fun unfinished => (by rw [done] at unfinished; cases unfinished), ?_, ?_⟩
      · rwa [next]
      · rw [listeners]
        rfl
  | false =>
      obtain ⟨a, b, less, next, listeners⟩ := call_costs env n program k done costs
      exact ⟨k - (a + b), a, b, by omega, fun _ => by omega, next, listeners⟩

def serves (n : Nat) (s : WebService Ch) : ServiceAction Ch → Bool
  | .proceed i _ => (s.pool.tasks[i]?).any fun task => task.request = n && !task.program.isDone
  | _ => false

theorem message_loop_costs (msg : JString) (agentNames : List JString) :
    Costs (NOperationCommand.sendLoop msg agentNames : Program Ch) (4 * agentNames.length) := by
  induction agentNames with
  | nil => trivial
  | cons element rest ih =>
      rw [List.length_cons, NOperationCommand.sendLoop]
      refine ⟨4 * rest.length + 3, by omega, fun found => ?_⟩
      cases found with
      | none => exact costs_more _ _ _ (by omega) ih
      | some c =>
          refine ⟨4 * rest.length + 2, by omega, fun answer => ?_⟩
          cases answer with
          | false => exact costs_more _ _ _ (by omega) ih
          | true => exact ⟨0, 4 * rest.length + 1, by omega, trivial, 0, 4 * rest.length, by omega, trivial, ih⟩

theorem send_files_costs [FileSystem] (element : JString) (next : Program Ch) (paths : List JString) (k : Nat)
    (costs : Costs next k) :
    Costs (NFileCommand.sendFiles element next paths) (8 * paths.length + k) := by
  induction paths with
  | nil => exact costs_more next k _ (by omega) costs
  | cons path rest ih =>
      have onward := ih
      rw [List.length_cons, NFileCommand.sendFiles, NFileCommand.sendFile]
      refine ⟨8 * rest.length + k + 7, by omega, fun found => ?_⟩
      cases found with
      | none => exact costs_more _ _ _ (by omega) onward
      | some c =>
          refine ⟨8 * rest.length + k + 6, by omega, fun answer => ?_⟩
          cases answer with
          | false => exact costs_more _ _ _ (by omega) onward
          | true =>
              refine ⟨8 * rest.length + k + 5, by omega, fun file => ?_⟩
              cases file with
              | none => exact costs_more _ _ _ (by omega) onward
              | some content =>
                  refine ⟨8 * rest.length + k + 4, by omega, fun again => ?_⟩
                  refine ⟨3, 8 * rest.length + k, by omega, ⟨2, by omega, fun content => ?_⟩, onward⟩
                  cases content with
                  | none => trivial
                  | some content => exact ⟨1, 0, by omega, ⟨0, by omega, trivial⟩, trivial⟩

def WebRequest.cost [FileSystem] : WebRequest → Nat
  | .frames (.operation message) => 4 * (message.agent.getD []).length
  | .frames (.noperation message) => 4 * (message.agent.getD []).length
  | .frames (.nfile conf fileMessage) =>
      8 * (WebRequest.frames (.nfile conf fileMessage)).paths.length * (fileMessage.agent.getD []).length
  | .file fileMessage => 6 * (fileMessage.agent.getD []).length

theorem file_loop_costs [FileSystem] (conf : Configuration) (fileMessage : FileMessage) (agentNames : List JString) :
    Costs (NFileCommand.sendLoop conf.fileDirectory fileMessage agentNames : Program Ch)
      (8 * (WebRequest.frames (.nfile (some conf) fileMessage)).paths.length * agentNames.length) := by
  induction agentNames with
  | nil => trivial
  | cons element rest ih =>
      have round : 8 * (WebRequest.frames (.nfile (some conf) fileMessage)).paths.length * (element :: rest).length =
          8 * (NFileCommand.typedFiles fileMessage).length + (8 * ((fileMessage.fileList.getD []).map
            (NFileCommand.selectedPath conf.fileDirectory)).length +
              8 * (WebRequest.frames (.nfile (some conf) fileMessage)).paths.length * rest.length) := by
        simp only [WebRequest.paths, workspaceOf, Option.bind_some, List.length_append, List.length_cons]
        ring
      rw [round, NFileCommand.sendLoop]
      apply send_files_costs
      cases names : fileMessage.fileList with
      | none => trivial
      | some fileList => exact send_files_costs element _ _ _ ih

theorem file_request_costs [FileSystem] (secure : Ch → Bool) (fileName : Option JString) (agentNames : List JString) :
    Costs (FileCommand.sendLoop secure fileName agentNames) (6 * agentNames.length) := by
  induction agentNames with
  | nil => trivial
  | cons element rest ih =>
      cases fileName with
      | none => exact costs_more _ _ _ (by rw [List.length_cons]; omega) ih
      | some msg =>
          rw [List.length_cons, FileCommand.sendLoop]
          refine ⟨6 * rest.length + 5, by omega, fun found => ?_⟩
          cases found with
          | none => trivial
          | some c =>
              refine ⟨6 * rest.length + 4, by omega, fun file => ?_⟩
              cases file with
              | none => exact costs_more _ _ _ (by omega) ih
              | some content =>
                  refine ⟨6 * rest.length + 3, by omega, fun again => ?_⟩
                  refine ⟨2, 6 * rest.length, by omega, ⟨1, by omega, fun content => ?_⟩, ih⟩
                  cases content with
                  | none => trivial
                  | some content =>
                      cases secure c with
                      | true => trivial
                      | false => exact ⟨0, 0, by omega, trivial, trivial⟩

theorem request_costs [FileSystem] (secure : Ch → Bool) (request : WebRequest) :
    Costs (request.program secure) request.cost := by
  cases request with
  | frames request =>
      cases request with
      | operation message =>
          by_cases missing : message.msg = none ∨ message.agent = none
          · rw [WebRequest.program, FrameRequest.program, OperationCommand.send_command_missing message missing]
            trivial
          · obtain ⟨hasText, hasNames⟩ := not_or.mp missing
            obtain ⟨msg, text⟩ := Option.ne_none_iff_exists'.mp hasText
            obtain ⟨agentNames, names⟩ := Option.ne_none_iff_exists'.mp hasNames
            simp only [WebRequest.program, FrameRequest.program, OperationCommand.sendCommand, names, text, WebRequest.cost,
              Option.getD_some]
            exact message_loop_costs msg agentNames
      | noperation message =>
          rw [WebRequest.program, FrameRequest.program]
          cases NOperationCommand.send_command_cases Ch message with
          | loops msg agentNames text _ names same =>
              rw [same, WebRequest.cost, names]
              exact message_loop_costs msg agentNames
          | nothing _ _ same =>
              rw [same]
              trivial
          | watches _ same =>
              rw [same]
              trivial
      | nfile conf fileMessage =>
          cases conf with
          | none => trivial
          | some conf =>
              rw [WebRequest.program, FrameRequest.program, NFileCommand.sendCommand]
              cases names : fileMessage.agent with
              | none => trivial
              | some agentNames =>
                  rw [WebRequest.cost, names]
                  exact file_loop_costs conf fileMessage agentNames
  | file fileMessage =>
      rw [WebRequest.program, FileCommand.sendCommand]
      cases names : fileMessage.agent with
      | none => trivial
      | some agentNames =>
          rw [WebRequest.cost, names]
          exact file_request_costs secure fileMessage.fileName agentNames

section Service

variable [DecidableEq Ch]

def Numbered (s : WebService Ch) : Prop := ∀ task ∈ s.pool.tasks, task.request < s.requests.length

structure Remaining (n : Nat) (request : WebRequest) (s : WebService Ch) (k : Nat) : Prop where
  accepted : s.requests[n]? = some request
  left : ∃ j, j ≤ k ∧ Shared Costs n s.pool.tasks j

theorem numbered_step [FileSystem] (id : Ch → JString) (secure : Ch → Bool) (s : WebService Ch) (action : ServiceAction Ch)
    (numbered : Numbered s) : Numbered (s.step id secure action) := by
  cases action with
  | channelActive c => exact numbered
  | channelRead0 c msg => exact numbered
  | close c => exact numbered
  | channelInactive c => exact numbered
  | request other =>
      intro task member
      simp only [WebService.step, List.length_append, List.length_singleton]
      rcases List.mem_append.mp member with old | new
      · exact Nat.lt_succ_of_lt (numbered task old)
      · rw [List.mem_singleton.mp new]
        exact Nat.lt_succ_self _
  | proceed i files =>
      refine Pool.each_task_proceed (s.env files) s.pool i _ (fun task => task.request < s.requests.length) numbered
        (fun _ known => known) fun task _ known => ⟨known, fun _ _ => known⟩

theorem remaining_accepted [FileSystem] (id : Ch → JString) (secure : Ch → Bool) (s : WebService Ch) (request : WebRequest)
    (numbered : Numbered s) : Remaining s.requests.length request (s.step id secure (.request request)) request.cost := by
  refine ⟨List.getElem?_concat_length, request.cost, Nat.le_refl _, ?_⟩
  refine (shared_append Costs _ s.pool.tasks _ _).mpr ⟨0, request.cost, (Nat.zero_add _).symm, ?_, ?_⟩
  · exact shared_others Costs _ _ fun task member => Nat.ne_of_lt (numbered task member)
  · exact (shared_one Costs _ _ _).mpr (request_costs secure request)

theorem remaining_step [FileSystem] (id : Ch → JString) (secure : Ch → Bool) (n : Nat) (request : WebRequest)
    (s : WebService Ch) (action : ServiceAction Ch) (k : Nat) (remaining : Remaining n request s k) :
    if serves n s action then ∃ j, j < k ∧ Remaining n request (s.step id secure action) j
    else Remaining n request (s.step id secure action) k := by
  cases action with
  | channelActive c => exact ⟨remaining.accepted, remaining.left⟩
  | channelRead0 c msg => exact ⟨remaining.accepted, remaining.left⟩
  | close c => exact ⟨remaining.accepted, remaining.left⟩
  | channelInactive c => exact ⟨remaining.accepted, remaining.left⟩
  | request other =>
      obtain ⟨inside, _⟩ := List.getElem?_eq_some_iff.mp remaining.accepted
      obtain ⟨j, fits, shared⟩ := remaining.left
      refine ⟨(List.getElem?_append_left inside).trans remaining.accepted, j, fits, ?_⟩
      refine (shared_append Costs n s.pool.tasks _ j).mpr ⟨j, 0, rfl, shared, ?_⟩
      exact shared_others Costs n _ (by simpa using Nat.ne_of_gt inside)
  | proceed i files =>
      obtain ⟨j, fits, shared⟩ := remaining.left
      obtain ⟨paid, rest, rfl, pays, after⟩ :=
        shared_proceed (s.env files) n i Costs SpendsCall (costs_pass_on (s.env files) n) s.pool j shared
      rw [serves]
      split
      · rename_i served
        refine ⟨rest, ?_, remaining.accepted, rest, Nat.le_refl rest, after⟩
        obtain ⟨task, found, own⟩ := (Option.any_eq_true _ _).mp served
        obtain ⟨request, program⟩ := task
        simp only [Bool.and_eq_true, decide_eq_true_eq, Bool.not_eq_true'] at own
        obtain ⟨rfl, unfinished⟩ := own
        rcases pays with ⟨other, called, spends⟩ | ⟨uncalled, _⟩
        · cases found.symm.trans called
          have spent := spends unfinished
          omega
        · exact absurd found (uncalled program)
      · exact ⟨remaining.accepted, rest, by omega, after⟩

def PageStage.serves (s : WebService Ch) (action : ServiceAction Ch) : PageStage → Bool
  | .sending n => Nenes.serves n s action
  | _ => false

def PageStage.isListing : PageStage → Bool
  | .listing _ _ => true
  | _ => false

-- A turn of the page's loop, or a call of its request or of one of its listeners.
def Pages.serves (p : Nat) (s : Pages Ch) : PageAction Ch → Bool
  | .service action => (s.pages[p]?).any fun page => page.stage.serves s.service action
  | .next q => q = p && (s.pages[p]?).any fun page => page.stage.isListing

inductive StageLeft [FileSystem] (request : WebRequest) (s : WebService Ch) (k : Nat) : PageStage → Prop where
  | listing (expected remaining : Nat) (left : remaining + 1 + request.cost ≤ k) : StageLeft request s k (.listing expected remaining)
  | cut : StageLeft request s k .cut
  | sending (n : Nat) (remaining : Remaining n request s k) : StageLeft request s k (.sending n)

structure PageLeft [FileSystem] (p : Nat) (request : WebRequest) (s : Pages Ch) (k : Nat) : Prop where
  numbered : Numbered s.service
  page : ∃ stage, s.pages[p]? = some ⟨request, stage⟩ ∧ StageLeft request s.service k stage

theorem stage_left_step [FileSystem] (id : Ch → JString) (secure : Ch → Bool) (request : WebRequest) (s : WebService Ch)
    (action : ServiceAction Ch) (k : Nat) (stage : PageStage) (left : StageLeft request s k stage) :
    if stage.serves s action then ∃ j, j < k ∧ StageLeft request (s.step id secure action) j stage
    else StageLeft request (s.step id secure action) k stage := by
  cases left with
  | listing expected remaining left => exact .listing expected remaining left
  | cut => exact .cut
  | sending n remaining =>
      have step := remaining_step id secure n request s action k remaining
      rw [PageStage.serves]
      split at step
      · rename_i served
        obtain ⟨j, less, left⟩ := step
        rw [if_pos served]
        exact ⟨j, less, .sending n left⟩
      · rename_i unserved
        rw [if_neg unserved]
        exact .sending n step

theorem stage_left_request [FileSystem] (id : Ch → JString) (secure : Ch → Bool) (request other : WebRequest)
    (s : WebService Ch) (k : Nat)
    (stage : PageStage) (left : StageLeft request s k stage) : StageLeft request (s.step id secure (.request other)) k stage := by
  have step := stage_left_step id secure request s (.request other) k stage left
  cases stage with
  | _ => exact step

theorem numbered_meant [FileSystem] (id : Ch → JString) (secure : Ch → Bool) (s : Pages Ch) (action : PageAction Ch)
    (numbered : Numbered s.service) : Numbered (s.step id secure action).service :=
  invariant_run (WebService.step id secure) Numbered (numbered_step id secure) s.service (s.meaning action) numbered

-- A turn of the page's own loop: it has one entry less left, is cut off, or goes on
-- to its sends.
theorem turn_left [FileSystem] (id : Ch → JString) (secure : Ch → Bool) (p : Nat) (request : WebRequest) (s : Pages Ch)
    (k : Nat)
    (expected remaining : Nat) (numbered : Numbered s.service) (present : s.pages[p]? = some ⟨request, .listing expected remaining⟩)
    (left : remaining + 1 + request.cost ≤ k) :
    ∃ j, j < k ∧ StageLeft request (s.step id secure (.next p)).service j
      (PageStage.next s.modCount s.service.requests.length (.listing expected remaining)) := by
  cases remaining with
  | zero =>
      have begun : (s.step id secure (.next p)).service = s.service.step id secure (.request request) := by
        simp [Pages.step, Pages.meaning, present, Page.begins]
      rw [begun]
      exact ⟨request.cost, by omega, .sending _ (remaining_accepted id secure s.service request numbered)⟩
  | succ remaining =>
      refine ⟨remaining + 1 + request.cost, by omega, ?_⟩
      rw [PageStage.next]
      split
      · exact .listing expected remaining (Nat.le_refl _)
      · exact .cut

theorem page_left_step [FileSystem] (id : Ch → JString) (secure : Ch → Bool) (p : Nat) (request : WebRequest) (s : Pages Ch)
    (action : PageAction Ch) (k : Nat) (left : PageLeft p request s k) :
    if s.serves p action then ∃ j, j < k ∧ PageLeft p request (s.step id secure action) j
    else PageLeft p request (s.step id secure action) k := by
  have numbered := numbered_meant id secure s action left.numbered
  obtain ⟨stage, present, remains⟩ := left.page
  cases action with
  | service action =>
      obtain ⟨own, _⟩ | ⟨_, kept⟩ := page_kept id secure s (.service action) p _ present
      · cases own
      have served : s.serves p (.service action) = stage.serves s.service action := by rw [Pages.serves, present, Option.any_some]
      rw [served]
      rcases meaning_service s action with meant | ⟨⟨other, rfl⟩, nothing⟩
      · have stepped : (s.step id secure (.service action)).service = s.service.step id secure action := by
          rw [Pages.step, meant]
          rfl
        have step := stage_left_step id secure request s.service action k stage remains
        rw [← stepped] at step
        split at step
        · rename_i turn
          obtain ⟨j, less, later⟩ := step
          rw [if_pos turn]
          exact ⟨j, less, numbered, stage, kept, later⟩
        · rename_i other
          rw [if_neg other]
          exact ⟨numbered, stage, kept, step⟩
      · have stepped : (s.step id secure (.service (.request other))).service = s.service := by
          rw [Pages.step, nothing]
          rfl
        have unserved : stage.serves s.service (.request other) = false := by cases stage with | _ => rfl
        rw [if_neg (by simp [unserved])]
        exact ⟨numbered, stage, kept, by rwa [stepped]⟩
  | next q =>
      have kept : ∀ stage, StageLeft request s.service k stage → StageLeft request (s.step id secure (.next q)).service k stage := by
        intro stage remains
        apply meant_step id secure s (.next q) (fun service => StageLeft request service k stage) remains
        · intro one own
          cases own
        · exact fun other => stage_left_request id secure request other s.service k stage remains
      obtain ⟨own, turned⟩ | ⟨other, same⟩ := page_kept id secure s (.next q) p _ present
      · cases own
        cases remains with
        | listing expected remaining remains =>
            have served : s.serves p (.next p) = true := by simp [Pages.serves, present, PageStage.isListing]
            obtain ⟨j, less, later⟩ := turn_left id secure p request s k expected remaining left.numbered present remains
            rw [if_pos served]
            exact ⟨j, less, numbered, _, turned, later⟩
        | cut =>
            have unserved : s.serves p (.next p) = false := by simp [Pages.serves, present, PageStage.isListing]
            rw [if_neg (by simp [unserved])]
            exact ⟨numbered, .cut, turned, .cut⟩
        | sending n remaining =>
            have unserved : s.serves p (.next p) = false := by simp [Pages.serves, present, PageStage.isListing]
            rw [if_neg (by simp [unserved])]
            exact ⟨numbered, .sending n, turned, kept _ (.sending n remaining)⟩
      · have unserved : s.serves p (.next q) = false := by
          have different : q ≠ p := fun same => other (congrArg PageAction.next same)
          simp [Pages.serves, different]
        rw [if_neg (by simp [unserved])]
        exact ⟨numbered, stage, same, kept stage remains⟩

-- However its turns and calls are answered, a page sends what it has to send and is
-- done: agents that join and leave and files that change do not keep it going.
theorem every_page_ends [FileSystem] (id : Ch → JString) (secure : Ch → Bool) (before after : List (PageAction Ch))
    (request : WebRequest) :
    countAlong (Pages.step id secure) (Pages.serves (reachedPages id secure before).pages.length)
      (reachedPages id secure (before ++ [.service (.request request)])) after ≤
      (if request.listsFirst then (reachedPages id secure before).entries + 1 else 0) + request.cost := by
  apply count_le_left (Pages.step id secure) _ (PageLeft (reachedPages id secure before).pages.length request)
  · intro s action k left served
    have step := page_left_step id secure _ request s action k left
    rwa [if_pos served] at step
  · intro s action k left unserved
    have step := page_left_step id secure _ request s action k left
    rwa [if_neg (by simp [unserved])] at step
  · have numbered : Numbered (reachedPages id secure before).service := by
      rw [reachedPages, pages_service]
      exact invariant_run _ Numbered (numbered_step id secure) _ _ (by simp [Numbered, Pages.start, WebService.start])
    rw [reached_pages_step]
    refine ⟨numbered_meant id secure _ _ numbered, _, List.getElem?_concat_length, ?_⟩
    split
    · exact .listing _ _ (Nat.le_refl _)
    · rename_i sends
      refine .sending _ ?_
      rw [Nat.zero_add, Pages.step, Pages.meaning, if_neg sends]
      exact remaining_accepted id secure _ request numbered

end Service

end Nenes
