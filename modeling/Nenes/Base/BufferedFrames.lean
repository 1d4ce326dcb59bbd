import Nenes.Base.SplitFrames

set_option autoImplicit false

namespace SplitFrames

variable {B : Type}

-- What is written waits for the next flush.
structure Buffer (B : Type) where
  sent : List B
  waiting : List B
deriving DecidableEq

namespace Buffer

def empty : Buffer B := ⟨[], []⟩

def write (buffer : Buffer B) (part : List B) : Buffer B := ⟨buffer.sent, buffer.waiting ++ part⟩

def flush (buffer : Buffer B) : Buffer B := ⟨buffer.sent ++ buffer.waiting, []⟩

end Buffer

def LastBody (started : List (Frame B)) (body : List B) : Prop := ∃ earlier head, started = earlier ++ [⟨head, body⟩]

-- Heads are flushed and bodies need not be: then the last frame's body, once it is
-- written, is all that waits.
structure Held (buffer : Buffer B) (started : List (Frame B)) (due : List (List B)) : Prop where
  coherent : Coherent (buffer.sent ++ buffer.waiting) started due
  last : ∀ body ∈ due, body ≠ [] → LastBody started body
  waits : buffer.waiting ≠ [] → NothingDue due ∧ LastBody started buffer.waiting

theorem held_empty : Held (Buffer.empty : Buffer B) [] [] where
  coherent := coherent_nil
  last _ member := nomatch member
  waits waiting := absurd rfl waiting

theorem held_perm (buffer : Buffer B) (started : List (Frame B)) (due other : List (List B)) (same : due.Perm other)
    (held : Held buffer started due) : Held buffer started other where
  coherent := coherent_perm _ started due other same held.coherent
  last body member := held.last body (same.mem_iff.mpr member)
  waits waiting := ⟨fun body member => (held.waits waiting).1 body (same.mem_iff.mpr member), (held.waits waiting).2⟩

theorem held_flush (buffer : Buffer B) (started : List (Frame B)) (due : List (List B)) (held : Held buffer started due) :
    Held buffer.flush started due where
  coherent := by
    rw [Buffer.flush, List.append_nil]
    exact held.coherent
  last := held.last
  waits waiting := absurd rfl waiting

theorem held_head (buffer : Buffer B) (started : List (Frame B)) (due : List (List B)) (frame : Frame B)
    (held : Held buffer started due) (none : NothingDue due) :
    Held (buffer.write frame.head).flush (started ++ [frame]) (frame.body :: due) where
  coherent := by
    rw [Buffer.flush, Buffer.write, List.append_nil, ← List.append_assoc]
    exact coherent_head _ started due frame held.coherent none
  last body member filled := by
    rcases List.mem_cons.mp member with rfl | earlier
    · exact ⟨started, frame.head, rfl⟩
    · exact absurd (none body earlier) filled
  waits waiting := absurd rfl waiting

theorem held_body (buffer : Buffer B) (started : List (Frame B)) (due : List (List B)) (body : List B)
    (held : Held buffer started (body :: due)) : Held (buffer.write body) started due where
  coherent := by
    rw [Buffer.write, ← List.append_assoc]
    exact coherent_body _ body started due held.coherent
  last other member := held.last other (List.mem_cons_of_mem body member)
  waits waiting := by
    by_cases blank : body = []
    · subst blank
      rw [Buffer.write, List.append_nil] at waiting ⊢
      obtain ⟨nothing, last⟩ := held.waits waiting
      exact ⟨fun other member => nothing other (List.mem_cons_of_mem [] member), last⟩
    · -- A body was due, so nothing waited, and no other one is due.
      have before : buffer.waiting = [] := by
        by_contra waited
        exact blank ((held.waits waited).1 body List.mem_cons_self)
      refine ⟨fun other member => ?_, ?_⟩
      · by_contra filled
        have single := held.coherent.single
        rw [List.filter_cons_of_pos (by simpa using blank), List.length_cons] at single
        have counted : other ∈ due.filter fun body => !body.isEmpty := List.mem_filter.mpr ⟨member, by simpa using filled⟩
        have positive := List.length_pos_of_mem counted
        omega
      · rw [Buffer.write, before, List.nil_append]
        exact held.last body List.mem_cons_self blank

theorem held_finished (buffer : Buffer B) (started : List (Frame B)) (held : Held buffer started []) :
    (buffer.waiting = [] → buffer.sent = concat started) ∧
      (buffer.waiting ≠ [] → ∃ earlier head, started = earlier ++ [⟨head, buffer.waiting⟩] ∧
        buffer.sent = concat earlier ++ head) := by
  have whole := coherent_finished _ started held.coherent
  refine ⟨fun waiting => ?_, fun waiting => ?_⟩
  · rwa [waiting, List.append_nil] at whole
  · obtain ⟨earlier, head, ends⟩ := (held.waits waiting).2
    refine ⟨earlier, head, ends, ?_⟩
    rw [ends, concat_snoc, Frame.bytes, ← List.append_assoc] at whole
    exact List.append_cancel_right whole

end SplitFrames
