import Nenes.AccountedWrites

set_option autoImplicit false

namespace Nenes

open ByteBuf Runs

variable {Ch : Type} [DecidableEq Ch]

-- The channel is closed, and nobody has found it open since the log was this.
structure StaysClosed (c : Ch) (log : List (Observation Ch)) (s : WebService Ch) : Prop where
  closed : s.active c = false
  unfound : ∃ more, s.pool.log = log ++ more ∧ ∀ n, .checked n c true ∉ more

omit [DecidableEq Ch] in
theorem stays_closed_log (c : Ch) (log : List (Observation Ch)) (s t : WebService Ch) (new : List (Observation Ch))
    (stays : StaysClosed c log s) (closed : t.active c = false) (grown : t.pool.log = s.pool.log ++ new)
    (unfound : ∀ n, .checked n c true ∉ new) : StaysClosed c log t := by
  obtain ⟨more, same, absent⟩ := stays.unfound
  refine ⟨closed, more ++ new, by rw [grown, same, List.append_assoc], fun n member => ?_⟩
  rcases List.mem_append.mp member with old | last
  · exact absent n old
  · exact unfound n last

omit [DecidableEq Ch] in
theorem closed_not_found (c : Ch) (env : Env Ch) (closed : env.isActive c = false) (request : Nat) (program : Program Ch) (n : Nat) :
    .checked n c true ∉ program.observed env request := by
  intro member
  cases program with
  | isActive other next =>
      simp only [Program.observed, List.mem_singleton, Observation.checked.injEq] at member
      obtain ⟨_, rfl, answer⟩ := member
      rw [closed] at answer
      cases answer
  | _ => simp [Program.observed] at member

theorem stays_closed_step [FileSystem] (id : Ch → JString) (secure : Ch → Bool) (c : Ch) (log : List (Observation Ch))
    (s : WebService Ch) (action : ServiceAction Ch) (stays : StaysClosed c log s) (other : action ≠ .channelActive c) :
    StaysClosed c log (s.step id secure action) := by
  cases action with
  | channelActive opened =>
      have different : c ≠ opened := fun same => other (by rw [same])
      refine stays_closed_log c log s _ [] stays ?_ (List.append_nil _).symm fun _ => List.not_mem_nil
      exact (Function.update_of_ne different true s.active).trans stays.closed
  | channelRead0 reader msg =>
      exact stays_closed_log c log s _ [.received reader msg.bytes] stays stays.closed rfl (by simp)
  | close closing =>
      refine stays_closed_log c log s _ [] stays ?_ (List.append_nil _).symm fun _ => List.not_mem_nil
      by_cases same : c = closing
      · rw [same]
        exact Function.update_self closing false s.active
      · exact (Function.update_of_ne same false s.active).trans stays.closed
  | channelInactive closing => exact ⟨stays.closed, stays.unfound⟩
  | request request => exact ⟨stays.closed, stays.unfound⟩
  | proceed i files =>
      cases Pool.proceed_cases (s.env files) s.pool i with
      | idle same =>
          refine stays_closed_log c log s _ [] stays stays.closed ?_ fun _ => List.not_mem_nil
          rw [WebService.step, same, List.append_nil]
      | taken _ task _ _ _ _ grown =>
          exact stays_closed_log c log s _ _ stays stays.closed grown
            (closed_not_found c (s.env files) stays.closed task.request task.program)

-- However it comes to be closed, the end is for good: only requests that have
-- found the connection open before, or do not ask, still write to it.
theorem closed_connection_stays_closed [FileSystem] (id : Ch → JString) (secure : Ch → Bool)
    (before after : List (ServiceAction Ch)) (c : Ch) (once : ∀ action ∈ after, action ≠ .channelActive c) :
    ∃ more, (reached id secure (before ++ .close c :: after)).pool.log = (reached id secure before).pool.log ++ more ∧
      ∀ n part buf, .queued n c part buf ∈ more → FoundActive (reached id secure before).pool.log n c ∨
        ∃ request, (reached id secure (before ++ .close c :: after)).requests[n]? = some request ∧
          request.asksActive = false := by
  have closing : StaysClosed c (reached id secure before).pool.log ((reached id secure before).step id secure (.close c)) := by
    refine ⟨?_, [], (List.append_nil _).symm, fun _ => List.not_mem_nil⟩
    simp only [WebService.step, Function.update_self]
  have ends := invariant_along (WebService.step id secure) (fun _ action => action ≠ .channelActive c)
    (StaysClosed c (reached id secure before).pool.log)
    (fun s action stays other => stays_closed_step id secure c _ s action stays other) _ after closing
    (along_of_forall _ _ _ after once)
  have same : reached id secure (before ++ .close c :: after) =
      run (WebService.step id secure) ((reached id secure before).step id secure (.close c)) after := by
    rw [reached, run_append, run_cons]
    rfl
  obtain ⟨more, log, unfound⟩ := ends.unfound
  rw [← same] at log
  refine ⟨more, log, fun n part buf member => ?_⟩
  obtain ⟨early, late, rfl⟩ := List.append_of_mem member
  have accounts := accounts_reached id secure (before ++ .close c :: after)
  obtain ⟨request, numbered, _, found, _⟩ := accounts.balanced.supported
    ((reached id secure before).pool.log ++ early) _ late (by simpa using log)
  refine found.imp (fun checked => ?_) fun unasked => ⟨request, numbered, unasked⟩
  rcases List.mem_append.mp checked with old | since
  · exact old
  · exact absurd (List.mem_append_left _ since) (unfound n)

open Unix

theorem closed_sample_stays_closed :
    ∃ more, (reached sampleId (fun _ => true) (watchActions.take 2 ++ .close 0 :: watchActions.drop 2)).pool.log =
        (reached sampleId (fun _ => true) (watchActions.take 2)).pool.log ++ more ∧
      ∀ n part buf, .queued n 0 part buf ∈ more →
        FoundActive (reached sampleId (fun _ => true) (watchActions.take 2)).pool.log n 0 ∨
        ∃ request, (reached sampleId (fun _ => true)
            (watchActions.take 2 ++ .close 0 :: watchActions.drop 2)).requests[n]? = some request ∧
          request.asksActive = false :=
  closed_connection_stays_closed sampleId (fun _ => true) (watchActions.take 2) (watchActions.drop 2) 0 (by simp [watchActions])

end Nenes
