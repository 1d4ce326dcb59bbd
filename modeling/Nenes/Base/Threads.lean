import Mathlib.Algebra.Group.Basic
import Mathlib.Algebra.Order.Group.Multiset
import Mathlib.Data.Multiset.AddSub
import Mathlib.Data.Multiset.Replicate
import Mathlib.Data.Multiset.MapFold

set_option autoImplicit false

namespace Threads

variable {W : Type}

-- A thread's writes in order. Each may leave a listener behind, which writes on
-- its own.
inductive Thread (W : Type) where
  | done
  | write (item : W) (listener next : Thread W)

-- The log is what some order of the threads' writes gives, and the rest are the
-- threads as it leaves them.
inductive Trace (start : Multiset (Thread W)) : List W → Multiset (Thread W) → Prop where
  | start : Trace start [] start
  | ended (log : List W) (rest : Multiset (Thread W)) (trace : Trace start log rest) : Trace start log (.done ::ₘ rest)
  | written (log : List W) (item : W) (listener next : Thread W) (rest : Multiset (Thread W))
      (trace : Trace start log (.write item listener next ::ₘ rest)) : Trace start (log ++ [item]) (next ::ₘ listener ::ₘ rest)

theorem trace_ended (start : Multiset (Thread W)) (log : List W) (rest : Multiset (Thread W)) (k : Nat) (trace : Trace start log rest) :
    Trace start log (Multiset.replicate k .done + rest) := by
  induction k with
  | zero => rwa [Multiset.replicate_zero, zero_add]
  | succ k ih =>
      rw [Multiset.replicate_succ, Multiset.cons_add]
      exact ih.ended log _

-- A thread that leaves no listeners.
def sequence (items : List W) : Thread W := items.foldr (fun item next => .write item .done next) .done

def single (item : W) : Thread W := .write item .done .done

-- A thread whose listeners write the second item of each pair.
def answered (pairs : List (W × W)) (onward : Thread W) : Thread W :=
  pairs.foldr (fun pair next => .write pair.1 (single pair.2) next) onward

theorem answered_append (first later : List (W × W)) (onward : Thread W) :
    answered (first ++ later) onward = answered first (answered later onward) := List.foldr_append

theorem sequence_done (items : List W) (done : sequence items = .done) : items = [] := by
  cases items with
  | nil => rfl
  | cons item rest => cases done

theorem answered_done (pairs : List (W × W)) (done : answered pairs .done = .done) : pairs = [] := by
  cases pairs with
  | nil => rfl
  | cons pair rest => cases done

theorem ended_cons (thread : Thread W) (rest : Multiset (Thread W)) (k : Nat) :
    .done ::ₘ thread ::ₘ (rest + Multiset.replicate k .done) = thread ::ₘ (rest + Multiset.replicate (k + 1) .done) := by
  rw [Multiset.cons_swap, Multiset.replicate_succ, Multiset.add_cons]

theorem write_not_ended (item : W) (listener next : Thread W) (k : Nat) :
    Thread.write item listener next ∉ Multiset.replicate k .done := fun member => nomatch Multiset.eq_of_mem_replicate member

-- Without listeners the log is a front part of what is to be written.
theorem trace_sequence (items log : List W) (rest : Multiset (Thread W)) (trace : Trace {sequence items} log rest) :
    ∃ left k, items = log ++ left ∧ rest = sequence left ::ₘ (0 + Multiset.replicate k .done) := by
  induction trace with
  | start => exact ⟨items, 0, rfl, rfl⟩
  | ended log rest _ ih =>
      obtain ⟨left, k, split, rfl⟩ := ih
      exact ⟨left, k + 1, split, ended_cons (sequence left) 0 k⟩
  | written log item listener next rest _ ih =>
      obtain ⟨left, k, split, threads⟩ := ih
      rcases Multiset.cons_eq_cons.mp threads with ⟨own, others⟩ | ⟨_, others, _, elsewhere⟩
      · cases left with
        | nil => cases own
        | cons first left =>
            cases own
            refine ⟨left, k + 1, by rw [split, List.append_assoc, List.singleton_append], ?_⟩
            rw [others, Multiset.cons_swap, ended_cons]
            rfl
      · rw [zero_add] at elsewhere
        exact absurd (elsewhere ▸ Multiset.mem_cons_self _ _) (write_not_ended item listener next k)

-- The first items come in order, and the second ones of those that have come may be
-- waiting still.
structure Answering (first : W → Bool) (pairs : List (W × W)) (log : List W) (sent left : List (W × W)) (waiting : Multiset W) :
    Prop where
  split : pairs = sent ++ left
  firsts : log.filter first = sent.map Prod.fst
  seconds : ((log.filter fun item => !first item : List W) : Multiset W) + waiting = (sent.map Prod.snd : List W)

theorem trace_answered (first : W → Bool) (pairs : List (W × W)) (told : ∀ pair ∈ pairs, first pair.1 = true ∧ first pair.2 = false)
    (log : List W) (rest : Multiset (Thread W)) (trace : Trace {answered pairs .done} log rest) :
    ∃ sent left waiting k, Answering first pairs log sent left waiting ∧
      rest = answered left .done ::ₘ (waiting.map single + Multiset.replicate k .done) := by
  induction trace with
  | start => exact ⟨[], pairs, 0, 0, ⟨rfl, rfl, rfl⟩, rfl⟩
  | ended log rest _ ih =>
      obtain ⟨sent, left, waiting, k, answering, rfl⟩ := ih
      exact ⟨sent, left, waiting, k + 1, answering, ended_cons _ _ k⟩
  | written log item listener next rest _ ih =>
      obtain ⟨sent, left, waiting, k, ⟨split, firsts, seconds⟩, threads⟩ := ih
      rcases Multiset.cons_eq_cons.mp threads with ⟨own, rfl⟩ | ⟨_, others, rfl, elsewhere⟩
      · cases left with
        | nil => cases own
        | cons pair left =>
            cases own
            have kind := told pair (by simp [split])
            refine ⟨sent ++ [pair], left, pair.2 ::ₘ waiting, k, ⟨?_, ?_, ?_⟩, ?_⟩
            · rw [split, List.append_assoc, List.singleton_append]
            · simp [firsts, kind.1]
            · simp only [List.filter_append, List.filter_cons, kind.1, Bool.not_true, Bool.false_eq_true, if_false,
                List.filter_nil, List.append_nil, Multiset.add_cons, seconds, List.map_append, List.map_cons, List.map_nil,
                ← Multiset.coe_add]
              rw [Multiset.coe_singleton, add_comm, Multiset.singleton_add]
            · rw [Multiset.map_cons, Multiset.cons_add]
              rfl
      · have listed : Thread.write item listener next ∈ waiting.map single := by
          have member : Thread.write item listener next ∈ waiting.map single + Multiset.replicate k .done :=
            elsewhere ▸ Multiset.mem_cons_self _ _
          exact (Multiset.mem_add.mp member).resolve_right (write_not_ended item listener next k)
        obtain ⟨second, due, same⟩ := Multiset.mem_map.mp listed
        cases same
        obtain ⟨waiting, rfl⟩ := Multiset.exists_cons_of_mem due
        rw [Multiset.map_cons, Multiset.cons_add, single, Multiset.cons_inj_right] at elsewhere
        have kind : first item = false := by
          have member : item ∈ (sent.map Prod.snd : Multiset W) := seconds ▸ Multiset.mem_add.mpr (.inr due)
          obtain ⟨pair, inside, rfl⟩ := List.mem_map.mp (Multiset.mem_coe.mp member)
          exact (told pair (by simp [split, inside])).2
        refine ⟨sent, left, waiting, k + 2, ⟨split, ?_, ?_⟩, ?_⟩
        · simp [firsts, kind]
        · rw [← seconds]
          simp only [List.filter_append, List.filter_cons, kind, Bool.not_false, if_true, List.filter_nil, ← Multiset.coe_add,
            Multiset.coe_singleton, Multiset.add_cons]
          rw [add_assoc, Multiset.singleton_add, Multiset.add_cons]
        · rw [← elsewhere, ← ended_cons, ← ended_cons]

end Threads
