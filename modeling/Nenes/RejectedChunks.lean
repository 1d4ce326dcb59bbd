import Nenes.ChannelManager

set_option autoImplicit false

namespace Nenes

open ByteBuf OperationServerHandler Server Runs

variable {Ch : Type} [DecidableEq Ch]

-- The two return statements of channelRead0 before any data is read.
def returnsEarly (bytes : Bytes) : Bool :=
  match readInt bytes with
  | none => false
  | some (headerSize, _) =>
      if headerSize ≥ 100 ∨ headerSize < 0 then true
      else match decodeHeader bytes with
        | none => false
        | some (headerBody, _, _) => !startsWith headerBody opCodeJoin

def rejects (id : JString) (this : OperationServerHandler) (msg : Chunk) : Bool :=
  (channelRead0 id this msg).threw || returnsEarly msg.bytes

theorem returns_early_header (bytes : Bytes) (early : returnsEarly bytes = true) : joinHeader bytes = none := by
  unfold returnsEarly at early
  cases first : readInt bytes with
  | none => simp [joinHeader, decodeHeader, first]
  | some read =>
      obtain ⟨headerSize, buf⟩ := read
      by_cases bad : headerSize ≥ 100 ∨ headerSize < 0
      · simp [joinHeader, decodeHeader, first, bad]
      · cases decoded : decodeHeader bytes with
        | none => simp [joinHeader, decoded]
        | some parts =>
            obtain ⟨text, dataSize, rest⟩ := parts
            have other : startsWith text opCodeJoin = false := by simpa [first, bad, decoded] using early
            simp [joinHeader, decoded, other]

theorem thrown_ignored (id : JString) (this : OperationServerHandler) (msg : Chunk)
    (threw : (channelRead0 id this msg).threw = true) : delivery this.offset msg.bytes = .ignored := by
  cases decoded : decodeHeader msg.bytes with
  | none => simp [delivery, joinHeader, decoded]
  | some parts =>
      obtain ⟨text, dataSize, buf⟩ := parts
      cases join : startsWith text opCodeJoin with
      | false => simp [delivery, joinHeader, decoded, join]
      | true =>
          cases read : readBytes (toRead this.offset dataSize buf) buf with
          | none => simp [delivery, joinHeader, decoded, join, read]
          | some field =>
              have returned := (channel_read_spec id this msg).returns text dataSize buf decoded (by simp [read])
              rw [threw] at returned
              cases returned

theorem rejected_ignored (id : JString) (this : OperationServerHandler) (msg : Chunk) (rejected : rejects id this msg = true) :
    delivery this.offset msg.bytes = .ignored := by
  cases (Bool.or_eq_true _ _).mp rejected with
  | inl threw => exact thrown_ignored id this msg threw
  | inr early => rw [delivery, returns_early_header msg.bytes early]

theorem rejected_read (id : JString) (this : OperationServerHandler) (msg : Chunk) (rejected : rejects id this msg = true) :
    (channelRead0 id this msg).handler.session = this.session ∧ (channelRead0 id this msg).effects = [] := by
  have refines := (channel_read_spec id this msg).refines
  rw [rejected_ignored id this msg rejected] at refines
  exact Prod.mk.inj refines

theorem same_session_read (id : JString) (this other : OperationServerHandler) (msg : Chunk)
    (same : this.session = other.session) :
    (channelRead0 id this msg).handler.session = (channelRead0 id other msg).handler.session ∧
      (channelRead0 id this msg).effects = (channelRead0 id other msg).effects := by
  have offsets : this.offset = other.offset := congrArg Session.offset same
  have refines := (channel_read_spec id this msg).refines
  rw [same, offsets, ← (channel_read_spec id other msg).refines] at refines
  exact Prod.mk.inj refines

-- What a later chunk, a request or a page can see of the server: headerSize,
-- headerBody, dataSize, headerRead and operationCode are left out.
structure SameTrace (s t : Server Ch) : Prop where
  map : s.map = t.map
  events : s.events = t.events
  inactive : s.inactive = t.inactive
  session : ∀ c, (s.handler c).session = (t.handler c).session

def drops (id : Ch → JString) (s : Server Ch) : Call Ch → Bool
  | .channelRead0 c msg => rejects (id c) (s.handler c) msg
  | .channelInactive _ => false

omit [DecidableEq Ch] in
theorem same_trace_refl (s : Server Ch) : SameTrace s s := ⟨rfl, rfl, rfl, fun _ => rfl⟩

omit [DecidableEq Ch] in
theorem same_trace_perform (c : Ch) (s t : Server Ch) (effect : Effect) (trace : SameTrace s t) :
    SameTrace (perform c s effect) (perform c t effect) := by
  cases effect with
  | put key => exact ⟨by rw [perform, perform, trace.map], trace.events, trace.inactive, trace.session⟩
  | remove key => exact ⟨by rw [perform, perform, trace.map], trace.events, trace.inactive, trace.session⟩
  | publishEvent data => exact ⟨trace.map, by rw [perform, perform, trace.events], trace.inactive, trace.session⟩

omit [DecidableEq Ch] in
theorem same_trace_effects (c : Ch) (s t : Server Ch) (effects : List Effect) (trace : SameTrace s t) :
    SameTrace (effects.foldl (perform c) s) (effects.foldl (perform c) t) := by
  induction effects generalizing s t with
  | nil => exact trace
  | cons effect rest ih => exact ih _ _ (same_trace_perform c s t effect trace)

theorem same_session_update (c : Ch) (before other : Ch → OperationServerHandler) (left right : OperationServerHandler)
    (session : ∀ d, (before d).session = (other d).session) (same : left.session = right.session) :
    ∀ d, (Function.update before c left d).session = (Function.update other c right d).session := by
  intro d
  by_cases own : d = c
  · subst own
    simpa using same
  · simpa [own] using session d

theorem same_trace_settle (c : Ch) (s t : Server Ch) (outcome other : Outcome) (trace : SameTrace s t)
    (session : outcome.handler.session = other.handler.session) (effects : outcome.effects = other.effects) :
    SameTrace (settle c s outcome) (settle c t other) := by
  rw [settle, settle, effects]
  apply same_trace_effects
  exact ⟨trace.map, trace.events, trace.inactive, same_session_update c _ _ _ _ trace.session session⟩

theorem same_trace_call (id : Ch → JString) (s t : Server Ch) (action : Call Ch) (trace : SameTrace s t) :
    SameTrace (call id s action) (call id t action) := by
  cases action with
  | channelRead0 c msg =>
      obtain ⟨session, effects⟩ := same_session_read (id c) (s.handler c) (t.handler c) msg (trace.session c)
      exact same_trace_settle c s t _ _ trace session effects
  | channelInactive c =>
      have names : (s.handler c).agentName = (t.handler c).agentName := congrArg Session.agentName (trace.session c)
      apply same_trace_settle c
      · exact ⟨trace.map, trace.events, by rw [trace.inactive], trace.session⟩
      · exact trace.session c
      · rw [channelInactive, channelInactive, names]

theorem same_trace_rejected (id : Ch → JString) (s : Server Ch) (c : Ch) (msg : Chunk)
    (rejected : rejects (id c) (s.handler c) msg = true) : SameTrace (call id s (.channelRead0 c msg)) s := by
  obtain ⟨session, effects⟩ := rejected_read (id c) (s.handler c) msg rejected
  rw [call, settle, effects]
  refine ⟨rfl, rfl, rfl, fun d => ?_⟩
  have unchanged := same_session_update c s.handler s.handler _ (s.handler c) (fun _ => rfl) session d
  rwa [Function.update_eq_self] at unchanged

omit [DecidableEq Ch] in
theorem same_trace_trans (s t u : Server Ch) (left : SameTrace s t) (right : SameTrace t u) : SameTrace s u :=
  ⟨left.map.trans right.map, left.events.trans right.events, left.inactive.trans right.inactive,
    fun c => (left.session c).trans (right.session c)⟩

theorem rejected_chunks_leave_no_trace (id : Ch → JString) :
    (∀ (s : Server Ch) (c : Ch) (msg : Chunk), rejects (id c) (s.handler c) msg = true →
      SameTrace (call id s (.channelRead0 c msg)) s) ∧
    (∀ (s : Server Ch) (calls : List (Call Ch)),
      SameTrace (run (call id) s calls) (run (call id) s (kept (call id) (drops id) s calls))) := by
  constructor
  · exact same_trace_rejected id
  · intro s calls
    apply simulation_kept (call id) (call id) (drops id) SameTrace _ _ s s calls (same_trace_refl s)
    · intro s t action _ trace
      exact same_trace_call id s t action trace
    · intro s t action dropped trace
      cases action with
      | channelRead0 c msg => exact same_trace_trans _ s t (same_trace_rejected id s c msg dropped) trace
      | channelInactive c => cases dropped

def otherHeader : Bytes := [0, 0, 0, 7, 79, 80, 95, 81, 85, 73, 84, 0, 0, 0, 0, 0, 0, 0, 0]

theorem other_header_fits : otherHeader.length < 2 ^ 31 := by decide

theorem cut_length_fits : [(0 : UInt8), 0].length < 2 ^ 31 := by decide

def cutLength : Chunk := ⟨[0, 0], cut_length_fits⟩

-- Agent a joins, sends a header that does not spell OP_JOIN and half a length
-- field, and leaves.
def rejectedCalls : List (Call Nat) :=
  [joinA, .channelRead0 0 ⟨otherHeader, other_header_fits⟩, .channelRead0 0 cutLength, .channelInactive 0]

theorem rejected_sample_leaves_no_trace :
    SameTrace (call sampleId (run (call sampleId) start [joinA]) (.channelRead0 0 cutLength))
        (run (call sampleId) start [joinA]) ∧
      SameTrace (run (call sampleId) start rejectedCalls)
        (run (call sampleId) start (kept (call sampleId) (drops sampleId) start rejectedCalls)) :=
  ⟨(rejected_chunks_leave_no_trace sampleId).1 _ 0 _ (by decide +kernel),
    (rejected_chunks_leave_no_trace sampleId).2 start rejectedCalls⟩

end Nenes
