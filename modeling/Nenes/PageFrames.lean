import Nenes.BufferedWrites
import Nenes.FileHeaders
import Nenes.MixedFrames
import Nenes.StaleAgents
import Nenes.WebService

set_option autoImplicit false

namespace Nenes

open ByteBuf SplitFrames Runs FrameStream
open Unicode (decodeUtf16)

variable {Ch : Type} [DecidableEq Ch]

theorem framed_skips (env : Env Ch) (program last : Program Ch) (sends : Ch → List AgentFrame)
    (skips : Skips env program last) (framed : Framed env last sends) : Framed env program sends where
  paired := skips_paired env program last skips framed.paired
  free ch := (skips_due env ch program last skips).trans (framed.free ch)
  frames ch := (skips_frames env ch program last skips).trans (framed.frames ch)

-- A header whose listener writes the body.
theorem framed_header (env : Env Ch) (other : Ch) (frame : AgentFrame) (listener next : Program Ch) (sends : Ch → List AgentFrame)
    (paired : Paired env listener) (starts : ∀ ch, framesOn env ch listener = [])
    (writes : ∀ ch, bodyDue env ch listener = if other = ch then some frame.data else none) (framed : Framed env next sends) :
    Framed env (.writeAndFlush other .header frame.parts.head listener next)
      fun ch => (if other = ch then [frame] else []) ++ sends ch where
  paired := by
    refine ⟨paired, framed.paired, starts, frame.data, fun ch => ?_⟩
    rw [bodiesAfter, writes, framed.free]
    by_cases here : other = ch
    · simp [here]
    · simp [here, Ne.symm here]
  free ch := by simp [bodyDue]
  frames ch := by
    rw [framesOn, framed.frames, writes]
    by_cases here : other = ch
    · simp [here, AgentFrame.parts]
    · simp [here]

namespace FileCommand

-- The agents before the first unknown one, whether they are active or not.
def sends [FileSystem] (env : Env Ch) (ch : Ch) (fileMessage : FileMessage) : List AgentFrame :=
  (((fileMessage.agent.getD []).takeWhile fun element => (env.get element).isSome).filter fun element =>
    env.get element = some ch).flatMap fun _ => opened env fileMessage.fileName.toList

theorem plain_listener (env : Env Ch) (other : Ch) (msg : JString) (content : Bytes) (file : env.read msg = some content) :
    Paired env (operationComplete false other msg) ∧ (∀ ch, framesOn env ch (operationComplete false other msg) = []) ∧
      ∀ ch, bodyDue env ch (operationComplete false other msg) = if other = ch then some content else none := by
  have skips : Skips env (operationComplete false other msg) (.writeAndFlush other .body content .done .done) := by
    apply Skips.read
    rw [file]
    exact .here _
  refine ⟨skips_paired env _ _ skips ⟨trivial, trivial, fun _ => rfl, fun _ => rfl⟩, fun ch => ?_, fun ch => ?_⟩
  · rw [skips_frames env ch _ _ skips]
    rfl
  · rw [skips_due env ch _ _ skips]
    simp [bodyDue]

theorem send_loop_framed [FileSystem] (env : Env Ch) (msg : JString) (ascii : AsciiName msg)
    (short : (getName msg).length < 2 ^ 31)
    (agentNames : List JString) : Framed env (sendLoop (fun _ => false) (some msg) agentNames) fun ch =>
      ((agentNames.takeWhile fun element => (env.get element).isSome).filter fun element =>
        env.get element = some ch).flatMap fun _ => opened env [msg] := by
  induction agentNames with
  | nil => exact ⟨trivial, fun _ => rfl, fun _ => rfl⟩
  | cons element rest ih =>
      rw [sendLoop]
      cases known : env.get element with
      | none =>
          refine ⟨?_, fun ch => ?_, fun ch => ?_⟩
          · simp [sendFile, Paired, known]
          · simp [sendFile, bodyDue, known]
          · simp [sendFile, framesOn, known]
      | some other =>
          cases file : env.read msg with
          | none =>
              have nothing : ∀ names : List JString, names.flatMap (fun _ => opened env [msg]) = [] := by simp [opened, file]
              simp only [nothing] at ih ⊢
              exact framed_skips env _ _ _ (send_file_refused env _ msg element other _ file known) ih
          | some content =>
              have frame : opened env [msg] = [⟨getName msg, content⟩] := by simp [opened, file]
              obtain ⟨paired, starts, writes⟩ := plain_listener env other msg content file
              have header := framed_header env other ⟨getName msg, content⟩ _ _ _ paired starts writes ih
              have skips := send_file_known env (fun _ => false) msg element content other 
                (sendLoop (fun _ => false) (some msg) rest) file known
              rw [(same_header_iff msg content.length short).mpr ascii] at skips
              have framed := framed_skips env _ _ _ skips header
              refine ⟨framed.paired, framed.free, fun ch => (framed.frames ch).trans (congrArg _ ?_)⟩
              rw [frame]
              by_cases here : other = ch
              · simp [known, here]
              · simp [known, here]

theorem file_page_framed [FileSystem] (env : Env Ch) (fileMessage : FileMessage)
    (named : ∀ msg ∈ fileMessage.fileName, AsciiName msg ∧ (getName msg).length < 2 ^ 31) :
    Framed env (sendCommand (fun _ => false) fileMessage) fun ch => sends env ch fileMessage := by
  rw [send_command_loops]
  cases name : fileMessage.fileName with
  | none =>
      have unnamed : ∀ agentNames : List JString, sendLoop (fun _ : Ch => false) none agentNames = .done := by
        intro agentNames
        induction agentNames with
        | nil => rfl
        | cons element rest ih => rw [sendLoop, ih]
      rw [unnamed]
      refine ⟨trivial, fun _ => rfl, fun ch => ?_⟩
      simp [sends, name, opened, framesOn]
  | some msg =>
      obtain ⟨ascii, short⟩ := named msg name
      simp only [sends, name]
      exact send_loop_framed env msg ascii short _

end FileCommand

namespace WebRequest

def sends [FileSystem] (env : Env Ch) (ch : Ch) : WebRequest → List AgentFrame
  | .frames request => request.sends env ch
  | .file fileMessage => FileCommand.sends env ch fileMessage

def AsciiNamed [FileSystem] : WebRequest → Prop
  | .frames _ => True
  | .file fileMessage => ∀ msg ∈ fileMessage.fileName, AsciiName msg ∧ (getName msg).length < 2 ^ 31

instance [FileSystem] : ∀ request : WebRequest, Decidable request.AsciiNamed
  | .frames _ => isTrue trivial
  | .file fileMessage => decidable_of_iff (fileMessage.fileName.toList.all fun msg =>
      (decodeUtf16 (getName msg)).all (fun c => c.toNat < 0x80) && (getName msg).length < 2 ^ 31) (by simp [AsciiNamed, AsciiName])

-- FileCommand's listener calls write where the others call writeAndFlush.
def flushesBody : WebRequest → Bool
  | .frames _ => true
  | .file _ => false

end WebRequest

theorem web_request_framed [FileSystem] (env : Env Ch) (request : WebRequest) (ascii : request.AsciiNamed) :
    Framed env (request.program fun _ => false) fun ch => request.sends env ch := by
  cases request with
  | frames request => exact request_framed env request
  | file fileMessage => exact FileCommand.file_page_framed env fileMessage ascii

def flushes (requests : List WebRequest) (write : Write) : Bool :=
  match write.part with
  | .header => true
  | .body => requests[write.request]?.all WebRequest.flushesBody

-- The server's channels are all without an SslHandler, or all have one.
def pageRequests [FileSystem] (requests : List WebRequest) : Pool Ch :=
  Pool.start (requests.map (WebRequest.program fun _ => false))

def outbound (requests : List WebRequest) (ch : Ch) (pool : Pool Ch) : Buffer UInt8 :=
  buffered (flushes requests) (writesOn ch pool.log)

def LastWriteIsFile (requests : List WebRequest) (ch : Ch) (pool : Pool Ch) : Prop :=
  ∃ write, (writesOn ch pool.log).getLast? = some write ∧ flushes requests write = false

-- All that is owed leaves the server, but for a file that nothing is written
-- behind: its header has left, and its content has not.
structure PagesSent (env : Env Ch) (ch : Ch) (requests : List WebRequest) (owed : List AgentFrame) (pool : Pool Ch) : Prop where
  onTheWay : ∃ order : List AgentFrame, order.Subperm owed ∧
    (outbound requests ch pool).sent ++ (outbound requests ch pool).waiting ++ (due env ch pool.tasks).flatten =
      order.flatMap AgentFrame.wire
  sent : pool.Finished → (outbound requests ch pool).waiting = [] → ∃ order : List AgentFrame, order.Perm owed ∧
    (outbound requests ch pool).sent = order.flatMap AgentFrame.wire
  withheld : pool.Finished → (outbound requests ch pool).waiting ≠ [] → ∃ (order : List AgentFrame) (last : AgentFrame),
    (order ++ [last]).Perm owed ∧ (outbound requests ch pool).waiting = last.data ∧
      (outbound requests ch pool).sent = order.flatMap AgentFrame.wire ++ last.parts.head
  waits : pool.Finished → (∀ frame ∈ owed, frame.data ≠ []) →
    ((outbound requests ch pool).waiting ≠ [] ↔ LastWriteIsFile requests ch pool)

theorem delivering_finished (env : Env Ch) (ch : Ch) (flushes : Write → Bool) (owed : List AgentFrame) (pool : Pool Ch)
    (started : List (Frame UInt8)) (delivering : Delivering env ch flushes (owed.map AgentFrame.parts) pool started)
    (finished : pool.Finished) :
    Held (buffered flushes (writesOn ch pool.log)) started [] ∧ ∃ order : List AgentFrame, order.Perm owed ∧
      started = order.map AgentFrame.parts := by
  have held := delivering.held
  have perm := delivering.frames
  rw [finished_due env ch pool finished] at held
  rw [List.flatten_eq_nil_iff.mpr (finished_remaining env ch pool finished), List.append_nil] at perm
  exact ⟨held, perm_of_map AgentFrame.parts started _ perm owed rfl⟩

theorem delivering_pages (env : Env Ch) (ch : Ch) (requests : List WebRequest) (owed : List AgentFrame) (pool : Pool Ch)
    (started : List (Frame UInt8))
    (delivering : Delivering env ch (flushes requests) (owed.map AgentFrame.parts) pool started) :
    PagesSent env ch requests owed pool where
  onTheWay := by
    have inside := (List.sublist_append_left started _).subperm.trans delivering.frames.subperm
    obtain ⟨order, chosen, rfl⟩ := subperm_of_map AgentFrame.parts started owed inside
    exact ⟨order, chosen, delivering.held.coherent.short.trans (concat_parts order)⟩
  sent finished waiting := by
    obtain ⟨held, order, perm, rfl⟩ := delivering_finished env ch _ owed pool started delivering finished
    exact ⟨order, perm, ((held_finished _ _ held).1 waiting).trans (concat_parts order)⟩
  withheld finished waiting := by
    obtain ⟨held, order, perm, rfl⟩ := delivering_finished env ch _ owed pool started delivering finished
    obtain ⟨earlier, head, ends, sent⟩ := (held_finished _ _ held).2 waiting
    obtain ⟨before, lasts, rfl, rfl, tail⟩ := List.map_eq_append_iff.mp ends
    obtain ⟨last, rfl, parts⟩ := List.map_eq_singleton_iff.mp tail
    have body : (outbound requests ch pool).waiting = last.data := (congrArg Frame.body parts).symm
    have headed : head = last.parts.head := (congrArg Frame.head parts).symm
    refine ⟨before, last, perm, body, ?_⟩
    rw [← concat_parts, ← headed]
    exact sent
  waits finished filled := by
    obtain ⟨held, order, perm, rfl⟩ := delivering_finished env ch _ owed pool started delivering finished
    apply last_write_waits
    intro write member unflushed
    cases part : write.part with
    | header => simp [flushes, part] at unflushed
    | body =>
        obtain ⟨frame, inside, same⟩ := delivering.written write member part
        obtain ⟨one, listed, rfl⟩ := List.mem_map.mp inside
        rw [← same]
        exact filled one (perm.mem_iff.mp listed)

-- The message pushes the first file out, and nothing pushes the second one.
def pagesSample : List WebRequest :=
  [.file ⟨some (ofString "/w/f"), some [ofString "a(d53f5b8e)"], none⟩, .frames (.operation (sampleRequest "ls")),
    .file ⟨some (ofString "/w/g"), some [ofString "a(d53f5b8e)"], none⟩]

def pagesSchedule : List Nat := [0, 0, 0, 0, 3, 3, 1, 1, 1, 1, 2, 2, 2, 2, 7, 7]

open Unix

end Nenes
