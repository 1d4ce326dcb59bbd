import Nenes.Broadcast
import Nenes.Monitor

set_option autoImplicit false

namespace Nenes

open ByteBuf Runs WsHandler

variable {S : Type} [DecidableEq S]

namespace Broadcast

def OwnIdsOnly (id : S → JString) (session : S) (state : State S) : Prop :=
  ∀ i, debugText i ∈ received session state → i = id session

structure KeepsIdsApart (id : S → JString) (session : S) (calls : List (SessionCall S)) : Prop where
  own : Always (step id) (OwnIdsOnly id session) start calls
  independent : ∀ other : S → JString, other session = id session →
    received session (run (step other) start calls) = received session (run (step id) start calls)

-- The greeting of another session does not reach this one.
def GreetsApart (session : S) (state : State S) : SessionCall S → Prop
  | .afterConnectionEstablished other turns => other = session ∨ ¬ Reaches session state turns
  | _ => True

theorem event_name_first (kind : EventType) : ∃ first tail, kind.name = first :: tail ∧ first ≠ 121 := by
  have named : ∃ first, kind.name.head? = some first ∧ first ≠ 121 := by
    cases kind with
    | connected => exact ⟨67, by decide +kernel⟩
    | disconnected => exact ⟨68, by decide +kernel⟩
    | _ => exact ⟨70, by decide +kernel⟩
  obtain ⟨first, head, other⟩ := named
  obtain ⟨tail, same⟩ := List.head?_eq_some_iff.mp head
  exact ⟨first, tail, same, other⟩

theorem event_is_not_debug (data : MessageEventData) (now : LocalTime) (i : JString) :
    data.notificationFormat now.text ≠ debugText i := by
  intro same
  obtain ⟨rest, debug⟩ := after_time_debug i
  obtain ⟨first, tail, name, other⟩ := event_name_first data.eventType
  rw [← same, after_time_notification, notificationBody, name, Option.some.injEq] at debug
  exact other (List.cons.inj debug).1

theorem debug_text_injective (i j : JString) (same : debugText i = debugText j) : i = j := List.append_cancel_left same

theorem received_established (id : S → JString) (session other : S) (state : State S) (turns : Turns S) :
    ∃ greeting, received session (step id state (.afterConnectionEstablished other turns)) =
        received session state ++ greeting ∧ (greeting = [] ∨ greeting = [debugText (id other)]) := by
  refine ⟨_, received_send turns _ { state with sessionSet := state.sessionSet.add other } session, ?_⟩
  split
  · exact .inr rfl
  · exact .inl rfl

theorem received_other_established (id : S → JString) (session other : S) (state : State S) (turns : Turns S)
    (different : other ≠ session) :
    received session (step id state (.afterConnectionEstablished other turns)) =
      received session state ++ if Reaches session state turns then [debugText (id other)] else [] := by
  have unmoved : Reaches session { state with sessionSet := state.sessionSet.add other } turns ↔ Reaches session state turns := by
    simp [Reaches, SessionSet.add, Ne.symm different]
  refine (received_send turns _ { state with sessionSet := state.sessionSet.add other } session).trans ?_
  simp only [unmoved]
  rfl

theorem own_ids_step (id : S → JString) (session : S) (state : State S) (call : SessionCall S)
    (own : OwnIdsOnly id session state) (apart : GreetsApart session state call) : OwnIdsOnly id session (step id state call) := by
  intro i told
  cases call with
  | afterConnectionEstablished other turns =>
      by_cases same : other = session
      · subst same
        obtain ⟨greeting, texts, one⟩ := received_established id other other state turns
        rw [texts, List.mem_append] at told
        rcases told with old | new
        · exact own i old
        · rcases one with rfl | rfl
          · simp at new
          · exact debug_text_injective i _ (List.mem_singleton.mp new)
      · rw [received_other_established id session other state turns same, if_neg (apart.resolve_left same),
          List.append_nil] at told
        exact own i told
  | afterConnectionClosed other => exact own i told
  | handleTransportError other => exact own i told
  | onApplicationEvent data now turns =>
      rw [step, received_send, List.mem_append] at told
      rcases told with old | new
      · exact own i old
      · split at new
        · exact False.elim (event_is_not_debug data now i (List.mem_singleton.mp new).symm)
        · simp at new

structure SameForSession (session : S) (state other : State S) : Prop where
  sessionSet : state.sessionSet = other.sessionSet
  texts : received session state = received session other

theorem same_for_session_send (session : S) (state other : State S) (turns : Turns S) (message : JString)
    (same : SameForSession session state other) :
    SameForSession session (sendMessage turns message state) (sendMessage turns message other) := by
  have reaches : Reaches session state turns ↔ Reaches session other turns := by rw [Reaches, Reaches, same.sessionSet]
  refine ⟨same.sessionSet, ?_⟩
  rw [received_send, received_send, same.texts, if_congr reaches rfl rfl]

theorem same_for_session_step (id ids : S → JString) (session : S) (sameId : ids session = id session)
    (state other : State S) (call : SessionCall S) (same : SameForSession session state other)
    (apart : GreetsApart session state call) : SameForSession session (step id state call) (step ids other call) := by
  cases call with
  | afterConnectionEstablished opened turns =>
      have added : SameForSession session { state with sessionSet := state.sessionSet.add opened }
          { other with sessionSet := other.sessionSet.add opened } := ⟨by rw [same.sessionSet], same.texts⟩
      by_cases own : opened = session
      · subst own
        rw [step, step, sameId]
        exact same_for_session_send opened _ _ turns _ added
      · have unreached := apart.resolve_left own
        have elsewhere : ¬ Reaches session other turns := by
          rw [Reaches, ← same.sessionSet]
          exact unreached
        refine ⟨added.sessionSet, ?_⟩
        rw [received_other_established id session opened state turns own, if_neg unreached,
          received_other_established ids session opened other turns own, if_neg elsewhere, same.texts]
  | afterConnectionClosed closed => exact ⟨congrArg (SessionSet.remove · closed) same.sessionSet, same.texts⟩
  | handleTransportError _ => exact same
  | onApplicationEvent data now turns => exact same_for_session_send session state other turns _ same

theorem received_step (id : S → JString) (session : S) (text : JString) (state : State S) (call : SessionCall S)
    (told : text ∈ received session state) : text ∈ received session (step id state call) := by
  cases call with
  | afterConnectionEstablished other turns =>
      obtain ⟨greeting, texts, _⟩ := received_established id session other state turns
      rw [texts]
      exact List.mem_append_left _ told
  | afterConnectionClosed other => exact told
  | handleTransportError other => exact told
  | onApplicationEvent data now turns =>
      rw [step, received_send]
      exact List.mem_append_left _ told

-- The registered sessions do not depend on the ids, so the greeting reaches
-- the session under any other id of its owner too.
theorem greeting_told (id ids : S → JString) (session other : S) (turns : Turns S) (before after : List (SessionCall S))
    (different : other ≠ session) (reaches : Reaches session (run (step id) start before) turns) :
    debugText (ids other) ∈
      received session (run (step ids) start (before ++ .afterConnectionEstablished other turns :: after)) := by
  have elsewhere : Reaches session (run (step ids) start before) turns := by
    refine ⟨?_, reaches.2⟩
    rw [run_registered ids, ← run_registered id]
    exact reaches.1
  rw [run_append, run_cons]
  apply invariant_run (step ids) _ (received_step ids session _)
  rw [received_other_established ids session other _ turns different, if_pos elsewhere]
  exact List.mem_append_right _ (List.mem_singleton.mpr rfl)

theorem ids_kept_apart (id : S → JString) (session : S) (calls : List (SessionCall S)) :
    KeepsIdsApart id session calls ↔ Along (step id) (GreetsApart session) start calls := by
  constructor
  · intro keeps
    rw [along_iff_splits]
    intro before call after same
    cases call with
    | afterConnectionEstablished other turns =>
        by_contra told
        obtain ⟨different, reaches⟩ := not_or.mp told
        -- Two runs: in the second the other session has an id that is not ours.
        let ids := Function.update id other (0 :: id session)
        have greeting := greeting_told id ids session other turns before after different (not_not.mp reaches)
        rw [← same, keeps.independent ids (Function.update_of_ne (Ne.symm different) _ _)] at greeting
        have longer := always_run (step id) _ start calls keeps.own _ greeting
        simp [ids] at longer
    | _ => trivial
  · intro apart
    constructor
    · apply always_along (step id) (GreetsApart session) _ _ start calls _ apart
      · exact own_ids_step id session
      · simp [OwnIdsOnly, received, start]
    · intro ids sameId
      exact (simulation_along (step id) (step ids) (GreetsApart session) (SameForSession session)
        (fun state other call same allowed => same_for_session_step id ids session sameId state other call same allowed)
        start start calls ⟨rfl, rfl⟩ apart).texts.symm

def inOrder : Turns Nat := ⟨fun sessions => sessions, fun _ => .refl _, fun _ => true, fun _ => false⟩

def decimalId (session : Nat) : JString := ofString (toString session)

theorem second_session_id_told_to_first :
    ¬ KeepsIdsApart decimalId 0 [.afterConnectionEstablished 0 inOrder, .afterConnectionEstablished 1 inOrder] := by
  intro keeps
  have greeting := greeting_told decimalId decimalId 0 1 inOrder [.afterConnectionEstablished 0 inOrder] [] (by decide)
    (by decide +kernel)
  have same := always_run (step decimalId) _ start _ keeps.own _ greeting
  revert same
  decide +kernel

end Broadcast

end Nenes
