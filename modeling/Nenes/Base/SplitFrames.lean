import Mathlib.Data.List.Perm.Basic

set_option autoImplicit false

namespace SplitFrames

variable {B : Type}

-- A frame that reaches its channel in two writes: the head, and the body it
-- announces some time later.
structure Frame (B : Type) where
  head : List B
  body : List B
deriving DecidableEq

def Frame.bytes (frame : Frame B) : List B := frame.head ++ frame.body

def concat (frames : List (Frame B)) : List B := (frames.map Frame.bytes).flatten

-- out is what the channel has been given, due the bodies still to be written.
-- With one body due at most, the channel is that body short of whole frames.
structure Coherent (out : List B) (started : List (Frame B)) (due : List (List B)) : Prop where
  single : (due.filter fun body => !body.isEmpty).length ≤ 1
  short : out ++ due.flatten = concat started

def NothingDue (due : List (List B)) : Prop := ∀ body ∈ due, body = []

theorem concat_snoc (frames : List (Frame B)) (frame : Frame B) :
    concat (frames ++ [frame]) = concat frames ++ frame.bytes := by
  simp [concat]

theorem coherent_nil : Coherent ([] : List B) [] [] := ⟨Nat.zero_le _, rfl⟩

theorem nothing_due_filter (due : List (List B)) (none : NothingDue due) :
    (due.filter fun body => !body.isEmpty) = [] := by
  rw [List.filter_eq_nil_iff]
  intro body member
  simp [none body member]

theorem nothing_due_flatten (due : List (List B)) (none : NothingDue due) : due.flatten = [] :=
  List.flatten_eq_nil_iff.mpr none

theorem perm_short_eq {A : Type} (left right : List A) (same : left.Perm right) (short : left.length ≤ 1) : left = right := by
  match left, same, short with
  | [], same, _ => exact (List.nil_perm.mp same).symm
  | [element], same, _ => exact (List.singleton_perm.mp same)
  | _ :: _ :: _, _, short => simp at short

theorem flatten_perm (due other : List (List B)) (same : due.Perm other)
    (single : (due.filter fun body => !body.isEmpty).length ≤ 1) : due.flatten = other.flatten := by
  have kept := perm_short_eq _ _ (same.filter fun body => !body.isEmpty) single
  rw [← List.flatten_filter_not_isEmpty, kept, List.flatten_filter_not_isEmpty]

theorem coherent_perm (out : List B) (started : List (Frame B)) (due other : List (List B)) (same : due.Perm other)
    (coherent : Coherent out started due) : Coherent out started other where
  single := by
    rw [← (same.filter _).length_eq]
    exact coherent.single
  short := by
    rw [← flatten_perm due other same coherent.single]
    exact coherent.short

theorem coherent_head (out : List B) (started : List (Frame B)) (due : List (List B)) (frame : Frame B)
    (coherent : Coherent out started due) (none : NothingDue due) :
    Coherent (out ++ frame.head) (started ++ [frame]) (frame.body :: due) where
  single := by
    rw [List.filter_cons, nothing_due_filter due none]
    split
    · exact Nat.le_refl 1
    · exact Nat.zero_le 1
  short := by
    have whole := coherent.short
    rw [nothing_due_flatten due none, List.append_nil] at whole
    rw [List.flatten_cons, nothing_due_flatten due none, List.append_nil, concat_snoc, ← whole, Frame.bytes, List.append_assoc]

theorem coherent_body (out body : List B) (started : List (Frame B)) (due : List (List B))
    (coherent : Coherent out started (body :: due)) : Coherent (out ++ body) started due where
  single := by
    have single := coherent.single
    rw [List.filter_cons] at single
    split at single
    · rw [List.length_cons] at single
      omega
    · exact single
  short := by
    rw [List.append_assoc]
    exact coherent.short

theorem coherent_finished (out : List B) (started : List (Frame B)) (coherent : Coherent out started []) :
    out = concat started := by
  rw [← coherent.short, List.flatten_nil, List.append_nil]

end SplitFrames
