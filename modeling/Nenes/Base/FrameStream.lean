import Mathlib.Data.List.Perm.Subperm

set_option autoImplicit false

namespace FrameStream

variable {A B : Type}

-- What a reader makes of a stream, and the part it stops at.
def readAll (read : List B → Option (A × List B)) : Nat → List B → List A × List B
  | 0, bytes => ([], bytes)
  | fuel + 1, bytes =>
      match read bytes with
      | none => ([], bytes)
      | some (item, rest) => (item :: (readAll read fuel rest).1, (readAll read fuel rest).2)

def ReadsBack (read : List B → Option (A × List B)) (write : A → List B) (item : A) : Prop :=
  ∀ rest, read (write item ++ rest) = some (item, rest)

theorem read_all_stream (read : List B → Option (A × List B)) (write : A → List B) (items : List A) (rest : List B)
    (reads : ∀ item ∈ items, ReadsBack read write item) (ends : read rest = none) (fuel : Nat)
    (enough : items.length ≤ fuel) : readAll read fuel (items.flatMap write ++ rest) = (items, rest) := by
  induction items generalizing fuel with
  | nil =>
      cases fuel with
      | zero => rfl
      | succ fuel => simp [readAll, ends]
  | cons item others ih =>
      cases fuel with
      | zero => simp at enough
      | succ fuel =>
          obtain ⟨first, later⟩ := List.forall_mem_cons.mp reads
          have tail := ih later fuel (by simpa using enough)
          rw [List.flatMap_cons, List.append_assoc, readAll, first]
          simp only [tail]

theorem stream_injective (read : List B → Option (A × List B)) (write : A → List B) (items others : List A)
    (reads : ∀ item ∈ items, ReadsBack read write item) (otherReads : ∀ item ∈ others, ReadsBack read write item)
    (ends : read [] = none) (same : items.flatMap write = others.flatMap write) : items = others := by
  have left := read_all_stream read write items [] reads ends (max items.length others.length) (Nat.le_max_left _ _)
  have right := read_all_stream read write others [] otherReads ends (max items.length others.length) (Nat.le_max_right _ _)
  rw [same, right] at left
  exact (congrArg Prod.fst left).symm

theorem perm_of_map {C : Type} (f : A → C) (mapped other : List C) (perm : mapped.Perm other) (items : List A)
    (image : other = items.map f) : ∃ order : List A, order.Perm items ∧ mapped = order.map f := by
  induction perm generalizing items with
  | nil =>
      obtain rfl := List.map_eq_nil_iff.mp image.symm
      exact ⟨[], List.Perm.refl _, rfl⟩
  | cons head _ ih =>
      obtain ⟨item, rest, rfl, rfl, tails⟩ := List.map_eq_cons_iff.mp image.symm
      obtain ⟨order, perm, same⟩ := ih rest tails.symm
      exact ⟨item :: order, perm.cons item, by rw [same, List.map_cons]⟩
  | swap first second rest =>
      obtain ⟨one, tail, rfl, rfl, rests⟩ := List.map_eq_cons_iff.mp image.symm
      obtain ⟨two, others, rfl, rfl, tails⟩ := List.map_eq_cons_iff.mp rests
      exact ⟨two :: one :: others, List.Perm.swap one two others, by rw [← tails, List.map_cons, List.map_cons]⟩
  | trans _ _ ihLeft ihRight =>
      obtain ⟨middle, permRight, same⟩ := ihRight items image
      obtain ⟨order, permLeft, mappedEq⟩ := ihLeft middle same
      exact ⟨order, permLeft.trans permRight, mappedEq⟩

theorem subperm_of_map {C : Type} (f : A → C) (mapped : List C) (items : List A) (inside : mapped.Subperm (items.map f)) :
    ∃ order : List A, order.Subperm items ∧ mapped = order.map f := by
  obtain ⟨other, perm, sublist⟩ := inside
  obtain ⟨chosen, chosenSublist, image⟩ := List.sublist_map_iff.mp sublist
  obtain ⟨order, orderPerm, same⟩ := perm_of_map f mapped other perm.symm chosen image
  exact ⟨order, orderPerm.subperm.trans chosenSublist.subperm, same⟩

end FrameStream
