import Nenes.FileDispatch
import Nenes.FileTransfer

set_option autoImplicit false

namespace Nenes

open ByteBuf Runs FileTransfer

variable {Ch : Type}

-- The header of a call whose body has been queued.
def FileTransfer.Stage.bodyAfter : Stage → Option Header
  | .bodyPending header _ _ => some header
  | .finished header _ _ => some header
  | _ => none

def HeaderSent (stage : Stage) : Prop := ∀ header ∈ stage.bodyAfter, header.sent = true

def FileTransfer.Stage.wholeSent : Stage → Bool
  | .finished header _ bodySent => header.sent && bodySent
  | _ => false

-- The event is that of the call with its number, and that call has sent all.
def BySentTransfer [FileSystem] (calls : List (Transfer Ch)) (event : Nat × MessageEventData) : Prop :=
  ∃ call, calls[event.1]? = some call ∧ call.stage.wholeSent = true ∧ event.2 = call.fileSent

structure SentMeansSent [FileSystem] (world : World Ch) : Prop where
  distinct : (world.events.map Prod.fst).Nodup
  sent : ∀ event ∈ world.events, BySentTransfer world.calls event
  queued : EachTransfer HeaderSent world

def QueuesAfterHeader : Stage → Moment → Prop
  | .sending header _ _, moment => header.sent = true ∨ (moment.secure = true ∧ moment.rafLength = none)
  | _, _ => True

def BodySent : Stage → Moment → Prop
  | .bodyPending _ _ _, moment => moment.succeeds = true
  | _, _ => True

-- No listener queues a body after its header write has failed, and no body
-- write fails.
def WritesSucceed (stage : Stage) (moment : Moment) : Prop := QueuesAfterHeader stage moment ∧ BodySent stage moment

theorem advance_header_sent (fileSent : MessageEventData) (fresh : Nat) (moment : Moment) (stage next : Stage)
    (effects : List StepEffect) (step : Advances fileSent fresh moment stage next effects) (sent : HeaderSent stage) :
    HeaderSent next ↔ QueuesAfterHeader stage moment := by
  cases step with
  | region header raf length plain => simp [HeaderSent, Stage.bodyAfter, QueuesAfterHeader, plain]
  | chunked header raf length last secure known => simp [HeaderSent, Stage.bodyAfter, QueuesAfterHeader, known]
  | notChunked header raf length secure failed => simp [HeaderSent, Stage.bodyAfter, QueuesAfterHeader, secure, failed]
  | bodyCompleted header raf body => exact ⟨fun _ => trivial, fun _ => sent⟩
  | finished header body bodySent => exact ⟨fun _ => trivial, fun _ => sent⟩
  | _ => exact ⟨fun _ => trivial, fun _ => nofun⟩

-- A step publishes when the body's write completes, and never otherwise.
inductive Publishes (fileSent : MessageEventData) (moment : Moment) (stage next : Stage) (effects : List StepEffect) : Prop where
  | completes (header : Header) (raf body : Nat) (pending : stage = .bodyPending header raf body)
      (finished : next = .finished header body moment.succeeds)
      (published : ∀ i, effects.filterMap (StepEffect.event i) = [(i, fileSent)])
  | silent (quiet : ∀ i, effects.filterMap (StepEffect.event i) = []) (free : BodySent stage moment)
      (kept : stage.wholeSent = true → next = stage)

theorem advance_publishes (fileSent : MessageEventData) (fresh : Nat) (moment : Moment) (stage next : Stage)
    (effects : List StepEffect) (step : Advances fileSent fresh moment stage next effects) :
    Publishes fileSent moment stage next effects := by
  cases step with
  | bodyCompleted header raf body => exact .completes header raf body rfl rfl fun _ => rfl
  | finished header body bodySent => exact .silent (fun _ => rfl) trivial fun _ => rfl
  | _ => exact .silent (fun _ => rfl) trivial nofun

structure EventsSent [FileSystem] (calls : List (Transfer Ch)) (events : List (Nat × MessageEventData)) : Prop where
  distinct : (events.map Prod.fst).Nodup
  sent : ∀ event ∈ events, BySentTransfer calls event

theorem events_begin [FileSystem] (calls more : List (Transfer Ch)) (events : List (Nat × MessageEventData))
    (sent : EventsSent calls events) :
    EventsSent (calls ++ more) events := by
  refine ⟨sent.distinct, fun event member => ?_⟩
  obtain ⟨call, found, whole⟩ := sent.sent event member
  obtain ⟨inside, _⟩ := List.getElem?_eq_some_iff.mp found
  exact ⟨call, (List.getElem?_append_left inside).trans found, whole⟩

theorem sent_transfer_set [FileSystem] (calls : List (Transfer Ch)) (i : Nat) (call : Transfer Ch) (next : Stage)
    (found : calls[i]? = some call) (kept : call.stage.wholeSent = true → next = call.stage)
    (event : Nat × MessageEventData) (sent : BySentTransfer calls event) :
    BySentTransfer (calls.set i { call with stage := next }) event := by
  obtain ⟨other, there, whole, same⟩ := sent
  by_cases here : i = event.1
  · obtain rfl : call = other := Option.some.inj (found.symm.trans (here ▸ there))
    obtain ⟨inside, _⟩ := List.getElem?_eq_some_iff.mp found
    refine ⟨{ call with stage := next }, ?_, ?_, same⟩
    · rw [← here, List.getElem?_set_self inside]
    · rw [kept whole]
      exact whole
  · exact ⟨other, (List.getElem?_set_ne here).trans there, whole, same⟩

theorem events_silent [FileSystem] (calls : List (Transfer Ch)) (events : List (Nat × MessageEventData)) (i : Nat)
    (call : Transfer Ch)
    (next : Stage) (found : calls[i]? = some call) (kept : call.stage.wholeSent = true → next = call.stage)
    (sent : EventsSent calls events) : EventsSent (calls.set i { call with stage := next }) events :=
  ⟨sent.distinct, fun event member => sent_transfer_set calls i call next found kept event (sent.sent event member)⟩

theorem unfinished_unpublished [FileSystem] (calls : List (Transfer Ch)) (events : List (Nat × MessageEventData)) (i : Nat)
    (call : Transfer Ch) (found : calls[i]? = some call) (unfinished : call.stage.wholeSent = false)
    (sent : EventsSent calls events) : ∀ event ∈ events, event.1 ≠ i := by
  intro event member same
  obtain ⟨other, there, whole, _⟩ := sent.sent event member
  rw [same, found] at there
  obtain rfl := Option.some.inj there
  rw [unfinished] at whole
  cases whole

theorem events_published [FileSystem] (calls : List (Transfer Ch)) (events : List (Nat × MessageEventData)) (i : Nat)
    (call : Transfer Ch) (header : Header) (body : Nat) (bodySent : Bool) (found : calls[i]? = some call)
    (unfinished : call.stage.wholeSent = false) (headerSent : header.sent = true) (sent : EventsSent calls events) :
    EventsSent (calls.set i { call with stage := .finished header body bodySent }) (events ++ [(i, call.fileSent)]) ↔
      bodySent = true := by
  obtain ⟨inside, _⟩ := List.getElem?_eq_some_iff.mp found
  have own : (calls.set i { call with stage := .finished header body bodySent })[i]? = _ := List.getElem?_set_self inside
  refine ⟨fun after => ?_, fun whole => ⟨?_, fun event member => ?_⟩⟩
  · obtain ⟨other, there, whole, _⟩ := after.sent (i, call.fileSent) (by simp)
    obtain rfl := Option.some.inj (own.symm.trans there)
    exact (Bool.and_eq_true_iff.mp whole).2
  · rw [List.map_append, List.nodup_append]
    refine ⟨sent.distinct, by simp, ?_⟩
    simpa using unfinished_unpublished calls events i call found unfinished sent
  · rcases List.mem_append.mp member with member | member
    · refine sent_transfer_set calls i call _ found (fun whole => ?_) event (sent.sent event member)
      exact absurd (unfinished.symm.trans whole) Bool.false_ne_true
    · obtain rfl := List.mem_singleton.mp member
      exact ⟨_, own, Bool.and_eq_true_iff.mpr ⟨headerSent, whole⟩, rfl⟩

theorem events_step [FileSystem] (world : World Ch) (action : TransferAction Ch) (sent : EventsSent world.calls world.events)
    (queued : EachTransfer HeaderSent world) :
    EventsSent (world.step action).calls (world.step action).events ↔ Whenever BodySent world action := by
  cases action with
  | sendFile registry msg element => exact ⟨fun _ => trivial, fun _ => events_begin world.calls _ world.events sent⟩
  | proceed i moment =>
      cases World.proceed_cases world i moment with
      | idle missing same => simp [World.step, same, Whenever, missing, sent]
      | taken call found after =>
          have step := advance_cases call world.nextHandle moment
          simp only [Whenever, found, Option.mem_some_iff, forall_eq', World.step, after]
          cases advance_publishes _ _ _ _ _ _ step with
          | silent quiet free kept =>
              rw [quiet, List.append_nil]
              exact ⟨fun _ => free, fun _ => events_silent world.calls world.events i call _ found kept sent⟩
          | completes header raf body pending finished published =>
              have headerSent : header.sent = true := by
                have each := queued call (List.mem_of_getElem? found)
                rw [pending] at each
                exact each header rfl
              have unfinished : call.stage.wholeSent = false := by simp [pending, Stage.wholeSent]
              rw [finished, published,
                events_published world.calls world.events i call header body _ found unfinished headerSent sent, pending]
              rfl

theorem whenever_and (one other : Stage → Moment → Prop) (world : World Ch) (action : TransferAction Ch) :
    Whenever (fun stage moment => one stage moment ∧ other stage moment) world action ↔
      Whenever one world action ∧ Whenever other world action := by
  cases action with
  | sendFile registry msg element => exact ⟨fun _ => ⟨trivial, trivial⟩, fun _ => trivial⟩
  | proceed i moment => exact forall₂_and

theorem sent_step [FileSystem] (world : World Ch) (action : TransferAction Ch) (sent : SentMeansSent world) :
    SentMeansSent (world.step action) ↔ Whenever WritesSucceed world action := by
  have queued := each_transfer_step HeaderSent QueuesAfterHeader nofun advance_header_sent world action sent.queued
  have events := events_step world action ⟨sent.distinct, sent.sent⟩ sent.queued
  rw [show Whenever WritesSucceed world action ↔ _ from whenever_and QueuesAfterHeader BodySent world action, ← queued,
    ← events]
  exact ⟨fun both => ⟨both.queued, both.distinct, both.sent⟩, fun both => ⟨both.2.distinct, both.2.sent, both.1⟩⟩

theorem file_sent_means_sent [FileSystem] (handles : List Nat) (nextHandle : Nat) (actions : List (TransferAction Ch)) :
    Always World.step SentMeansSent (World.start handles nextHandle) actions ↔
      Along World.step (Whenever WritesSucceed) (World.start handles nextHandle) actions :=
  always_iff_along World.step (fun _ => True) SentMeansSent (Whenever WritesSucceed) (fun _ _ _ => trivial)
    (fun world action _ => sent_step world action) (World.start handles nextHandle) actions trivial
    ⟨List.nodup_nil, nofun, nofun⟩

-- The agent disconnects while the body is on its way.
def lostBody : List (TransferAction Nat) :=
  .sendFile sampleEnv (ofString "/w/f") (ofString "a(d53f5b8e)") ::
    (List.replicate 7 (.proceed 0 (Moment.still 1 false true)) ++ [.proceed 0 (Moment.still 1 false false)])

open Unix

theorem lost_body_is_reported_sent : ¬ Always World.step SentMeansSent (World.start [] 0) lostBody := by
  intro always
  have sent := (always_run World.step SentMeansSent (World.start [] 0) lostBody always).sent
  have reported : (run World.step (World.start [] 0) lostBody).events =
      [(0, ⟨.fileSent, ofString "a(d53f5b8e)", ofString "f"⟩)] := by decide +kernel
  rw [reported] at sent
  obtain ⟨call, found, whole, _⟩ := sent _ (List.mem_singleton_self _)
  have unsent : ∀ call ∈ (run World.step (World.start [] 0) lostBody).calls[0]?, call.stage.wholeSent = false := by
    decide +kernel
  rw [unsent call found] at whole
  cases whole

end Nenes
