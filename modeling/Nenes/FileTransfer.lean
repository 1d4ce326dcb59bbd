import Nenes.Base.Runs
import Nenes.NFileCommand

set_option autoImplicit false

namespace Nenes

open ByteBuf Runs NFileCommand

namespace FileTransfer

-- What one step of a SendFile call finds. Between two steps other programs may
-- have changed the file in any way.
structure Moment where
  opens : Bool
  rafLength : Option Nat
  fileLength : Nat
  secure : Bool
  succeeds : Bool
deriving DecidableEq, Repr

def Moment.still (length : Nat) (secure succeeds : Bool) : Moment := ⟨true, some length, length, secure, succeeds⟩

structure Header where
  announced : Nat
  sent : Bool
deriving DecidableEq, Repr

-- A call of SendFile between two of its steps, with the values its next steps
-- use. The listener of the header write begins at reopening.
inductive Stage where
  | opening
  | measuring (raf : Nat)
  | announcing
  | headerPending (announced : Nat)
  | reopening (header : Header)
  | remeasuring (header : Header) (raf : Nat)
  | sending (header : Header) (raf length : Nat)
  | bodyPending (header : Header) (raf body : Nat)
  | unsent
  | raised (header : Header)
  | finished (header : Header) (body : Nat) (bodySent : Bool)
deriving DecidableEq, Repr

-- registry is ChannelManager.map and the state of its channels at the call.
structure Transfer (Ch : Type) where
  registry : Env Ch
  ch : Ch
  msg : JString
  element : JString
  reached : target registry element = some ch
  stage : Stage

inductive StepEffect where
  | opened (raf : Nat)
  | closed (raf : Nat)
  | published (data : MessageEventData)
deriving DecidableEq, Repr

variable {Ch : Type}

def Transfer.headerBytes [FileSystem] (call : Transfer Ch)
    (header : Header) : Bytes := initializeProtocol call.msg header.announced

def Transfer.fileSent [FileSystem] (call : Transfer Ch) : MessageEventData := ⟨.fileSent, call.element, getName call.msg⟩

-- The check closes its file only if it is not empty. ChunkedFile measures the
-- file once more. Both listeners run whether or not their write succeeded.
def Transfer.advance [FileSystem] (call : Transfer Ch) (fresh : Nat) (moment : Moment) : Stage × List StepEffect :=
  match call.stage with
  | .opening => if moment.opens then (.measuring fresh, [.opened fresh]) else (.unsent, [])
  | .measuring raf =>
      match moment.rafLength with
      | none => (.unsent, [])
      | some length => (.announcing, if 0 < length then [.closed raf] else [])
  | .announcing => (.headerPending moment.fileLength, [])
  | .headerPending announced => (.reopening ⟨announced, moment.succeeds⟩, [])
  | .reopening header => if moment.opens then (.remeasuring header fresh, [.opened fresh]) else (.raised header, [])
  | .remeasuring header raf =>
      match moment.rafLength with
      | none => (.raised header, [])
      | some length => (.sending header raf length, [])
  | .sending header raf length =>
      if moment.secure then
        match moment.rafLength with
        | none => (.raised header, [])
        | some length => (.bodyPending header raf length, [])
      else (.bodyPending header raf length, [])
  | .bodyPending header raf body => (.finished header body moment.succeeds, [.published call.fileSent, .closed raf])
  | .unsent => (.unsent, [])
  | .raised header => (.raised header, [])
  | .finished header body bodySent => (.finished header body bodySent, [])

structure World (Ch : Type) where
  calls : List (Transfer Ch)
  handles : List Nat
  nextHandle : Nat
  events : List (Nat × MessageEventData)

def StepEffect.onHandles (handles : List Nat) : StepEffect → List Nat
  | .opened raf => raf :: handles
  | .closed raf => handles.erase raf
  | .published _ => handles

def StepEffect.event (i : Nat) : StepEffect → Option (Nat × MessageEventData)
  | .published data => some (i, data)
  | _ => none

inductive TransferAction (Ch : Type) where
  | sendFile (registry : Env Ch) (msg element : JString)
  | proceed (i : Nat) (moment : Moment)

-- Every way a step goes, with what it found.
inductive Advances (fileSent : MessageEventData) (fresh : Nat) (moment : Moment) : Stage → Stage → List StepEffect → Prop where
  | opened (found : moment.opens = true) : Advances fileSent fresh moment .opening (.measuring fresh) [.opened fresh]
  | missing (gone : moment.opens = false) : Advances fileSent fresh moment .opening .unsent []
  | measured (raf length : Nat) (known : moment.rafLength = some length) (content : 0 < length) :
      Advances fileSent fresh moment (.measuring raf) .announcing [.closed raf]
  | empty (raf : Nat) (known : moment.rafLength = some 0) : Advances fileSent fresh moment (.measuring raf) .announcing []
  | unmeasured (raf : Nat) (failed : moment.rafLength = none) : Advances fileSent fresh moment (.measuring raf) .unsent []
  | headerQueued : Advances fileSent fresh moment .announcing (.headerPending moment.fileLength) []
  | headerCompleted (announced : Nat) :
      Advances fileSent fresh moment (.headerPending announced) (.reopening ⟨announced, moment.succeeds⟩) []
  | reopened (header : Header) (found : moment.opens = true) :
      Advances fileSent fresh moment (.reopening header) (.remeasuring header fresh) [.opened fresh]
  | lost (header : Header) (gone : moment.opens = false) :
      Advances fileSent fresh moment (.reopening header) (.raised header) []
  | remeasured (header : Header) (raf length : Nat) (known : moment.rafLength = some length) :
      Advances fileSent fresh moment (.remeasuring header raf) (.sending header raf length) []
  | notRemeasured (header : Header) (raf : Nat) (failed : moment.rafLength = none) :
      Advances fileSent fresh moment (.remeasuring header raf) (.raised header) []
  | region (header : Header) (raf length : Nat) (plain : moment.secure = false) :
      Advances fileSent fresh moment (.sending header raf length) (.bodyPending header raf length) []
  | chunked (header : Header) (raf length last : Nat) (secure : moment.secure = true) (known : moment.rafLength = some last) :
      Advances fileSent fresh moment (.sending header raf length) (.bodyPending header raf last) []
  | notChunked (header : Header) (raf length : Nat) (secure : moment.secure = true) (failed : moment.rafLength = none) :
      Advances fileSent fresh moment (.sending header raf length) (.raised header) []
  | bodyCompleted (header : Header) (raf body : Nat) :
      Advances fileSent fresh moment (.bodyPending header raf body) (.finished header body moment.succeeds)
        [.published fileSent, .closed raf]
  | unsent : Advances fileSent fresh moment .unsent .unsent []
  | raised (header : Header) : Advances fileSent fresh moment (.raised header) (.raised header) []
  | finished (header : Header) (body : Nat) (bodySent : Bool) :
      Advances fileSent fresh moment (.finished header body bodySent) (.finished header body bodySent) []

theorem advance_cases [FileSystem] (call : Transfer Ch) (fresh : Nat) (moment : Moment) :
    Advances call.fileSent fresh moment call.stage (call.advance fresh moment).1 (call.advance fresh moment).2 := by
  rw [Transfer.advance]
  cases call.stage with
  | opening =>
      cases found : moment.opens with
      | true => exact .opened found
      | false => exact .missing found
  | measuring raf =>
      cases known : moment.rafLength with
      | none => exact .unmeasured raf known
      | some length =>
          cases length with
          | zero => exact .empty raf known
          | succ length => exact .measured raf (length + 1) known (Nat.succ_pos length)
  | announcing => exact .headerQueued
  | headerPending announced => exact .headerCompleted announced
  | reopening header =>
      cases found : moment.opens with
      | true => exact .reopened header found
      | false => exact .lost header found
  | remeasuring header raf =>
      cases known : moment.rafLength with
      | none => exact .notRemeasured header raf known
      | some length => exact .remeasured header raf length known
  | sending header raf length =>
      cases secure : moment.secure with
      | false => exact .region header raf length secure
      | true =>
          cases known : moment.rafLength with
          | none => exact .notChunked header raf length secure known
          | some last => exact .chunked header raf length last secure known
  | bodyPending header raf body => exact .bodyCompleted header raf body
  | unsent => exact .unsent
  | raised header => exact .raised header
  | finished header body bodySent => exact .finished header body bodySent

-- An unknown name or an inactive channel ends the call before it does anything.
def Transfer.begin (registry : Env Ch) (msg element : JString) : Option (Transfer Ch) :=
  match reached : target registry element with
  | none => none
  | some ch => some ⟨registry, ch, msg, element, reached, .opening⟩

theorem begin_opening (registry : Env Ch) (msg element : JString) :
    ∀ call ∈ Transfer.begin registry msg element, call.stage = .opening := by
  intro call member
  rw [Transfer.begin] at member
  split at member
  · cases member
  · cases member
    rfl

theorem begin_reached (registry : Env Ch) (ch : Ch) (msg element : JString) (reached : target registry element = some ch) :
    Transfer.begin registry msg element = some ⟨registry, ch, msg, element, reached, .opening⟩ := by
  rw [Transfer.begin]
  split
  next missing => exact absurd (reached.symm.trans missing) nofun
  next other found =>
    obtain rfl : ch = other := Option.some.inj (reached.symm.trans found)
    rfl

namespace World

def start (handles : List Nat) (nextHandle : Nat) : World Ch := ⟨[], handles, nextHandle, []⟩

def proceed [FileSystem] (world : World Ch) (i : Nat) (moment : Moment) : World Ch :=
  match world.calls[i]? with
  | none => world
  | some call =>
      { calls := world.calls.set i { call with stage := (call.advance world.nextHandle moment).1 }
        handles := (call.advance world.nextHandle moment).2.foldl StepEffect.onHandles world.handles
        nextHandle := world.nextHandle + 1
        events := world.events ++ (call.advance world.nextHandle moment).2.filterMap (StepEffect.event i) }

def step [FileSystem] (world : World Ch) : TransferAction Ch → World Ch
  | .sendFile registry msg element => { world with calls := world.calls ++ (Transfer.begin registry msg element).toList }
  | .proceed i moment => world.proceed i moment

inductive Proceeds [FileSystem] (world : World Ch) (i : Nat) (moment : Moment) : Prop where
  | idle (missing : world.calls[i]? = none) (same : world.proceed i moment = world)
  | taken (call : Transfer Ch) (found : world.calls[i]? = some call)
      (after : world.proceed i moment =
        { calls := world.calls.set i { call with stage := (call.advance world.nextHandle moment).1 }
          handles := (call.advance world.nextHandle moment).2.foldl StepEffect.onHandles world.handles
          nextHandle := world.nextHandle + 1
          events := world.events ++ (call.advance world.nextHandle moment).2.filterMap (StepEffect.event i) })

theorem proceed_cases [FileSystem] (world : World Ch) (i : Nat) (moment : Moment) : Proceeds world i moment := by
  cases found : world.calls[i]? with
  | none => exact .idle found (by rw [proceed, found])
  | some call => exact .taken call found (by rw [proceed, found])

end World

-- A condition on the step that the action's call is about to take.
def Whenever (condition : Stage → Moment → Prop) (world : World Ch) : TransferAction Ch → Prop
  | .sendFile _ _ _ => True
  | .proceed i moment => ∀ call ∈ world.calls[i]?, condition call.stage moment

instance (condition : Stage → Moment → Prop) [∀ stage moment, Decidable (condition stage moment)] (world : World Ch) :
    ∀ action, Decidable (Whenever condition world action)
  | .sendFile _ _ _ => isTrue trivial
  | .proceed i moment => inferInstanceAs (Decidable (∀ call ∈ world.calls[i]?, condition call.stage moment))

def EachTransfer (property : Stage → Prop) (world : World Ch) : Prop := ∀ call ∈ world.calls, property call.stage

instance (property : Stage → Prop) [DecidablePred property] (world : World Ch) : Decidable (EachTransfer property world) :=
  inferInstanceAs (Decidable (∀ call ∈ world.calls, property call.stage))

-- What holds of each call's stage is decided by the steps the calls take.
theorem each_transfer_step [FileSystem] (property : Stage → Prop) (condition : Stage → Moment → Prop)
    (opening : property .opening)
    (exactly : ∀ fileSent fresh moment stage next effects, Advances fileSent fresh moment stage next effects →
      property stage → (property next ↔ condition stage moment))
    (world : World Ch) (action : TransferAction Ch) (each : EachTransfer property world) :
    EachTransfer property (world.step action) ↔ Whenever condition world action := by
  cases action with
  | sendFile registry msg element =>
      refine ⟨fun _ => trivial, fun _ call member => ?_⟩
      simp only [World.step, List.mem_append, Option.mem_toList] at member
      rcases member with member | member
      · exact each call member
      · rw [begin_opening registry msg element call member]
        exact opening
  | proceed i moment =>
      cases World.proceed_cases world i moment with
      | idle missing same => simp [World.step, same, Whenever, missing, each]
      | taken call found after =>
          obtain ⟨inside, here⟩ := List.getElem?_eq_some_iff.mp found
          have one := exactly _ _ _ _ _ _ (advance_cases call world.nextHandle moment)
            (each call (here ▸ List.getElem_mem inside))
          simp only [Whenever, found, Option.mem_some_iff, forall_eq', World.step, EachTransfer, after]
          refine Iff.trans ⟨fun all => all _ (List.mem_set inside _), fun next other member => ?_⟩ one
          rcases List.mem_or_eq_of_mem_set member with old | rfl
          · exact each other old
          · exact next

theorem each_transfer_run [FileSystem] (property : Stage → Prop) (condition : Stage → Moment → Prop)
    (opening : property .opening)
    (exactly : ∀ fileSent fresh moment stage next effects, Advances fileSent fresh moment stage next effects →
      property stage → (property next ↔ condition stage moment))
    (handles : List Nat) (nextHandle : Nat) (actions : List (TransferAction Ch)) :
    Always World.step (EachTransfer property) (World.start handles nextHandle) actions ↔
      Along World.step (Whenever condition) (World.start handles nextHandle) actions :=
  always_iff_along World.step (fun _ => True) (EachTransfer property) (Whenever condition) (fun _ _ _ => trivial)
    (fun world action _ each => each_transfer_step property condition opening exactly world action each)
    (World.start handles nextHandle) actions trivial nofun

-- With a file that stays as it is the call comes to the end that sendFile and
-- its listener have in one piece.
theorem still_file_sent [FileSystem] (handles : List Nat) (nextHandle : Nat) (registry : Env Ch) (ch : Ch)
    (msg element : JString) (length : Nat) (secure : Bool) (reached : target registry element = some ch) :
    (run World.step (World.start handles nextHandle)
      (.sendFile registry msg element :: List.replicate 8 (.proceed 0 (Moment.still length secure true)))).calls =
      [⟨registry, ch, msg, element, reached, .finished ⟨length, true⟩ length true⟩] := by
  have begun := begin_reached registry ch msg element reached
  cases secure <;>
    simp [World.step, World.start, World.proceed, begun, List.replicate, Transfer.advance, Moment.still]

end FileTransfer

end Nenes
