import Mathlib.Data.List.Induction
import Nenes.Base.Runs

set_option autoImplicit false

namespace EventLog

variable {E : Type}

def EachSupported (support : List E → E → Prop) (log : List E) : Prop :=
  ∀ before event after, log = before ++ event :: after → support before event

-- Every closing event has an opening one before it, with no closing event in
-- between.
def EachPreceded (opens closes : E → Prop) (log : List E) : Prop :=
  ∀ before event after, log = before ++ event :: after → closes event →
    ∃ earlier opening between, before = earlier ++ opening :: between ∧ opens opening ∧ ∀ other ∈ between, ¬ closes other

-- The log has an opening event with no closing event after it.
def Since (opens closes : E → Prop) (log : List E) : Prop :=
  ∃ before opening after, log = before ++ opening :: after ∧ opens opening ∧ ∀ later ∈ after, ¬ closes later

def EachFollowedOnce (caused : E → Prop) (closes : E → Bool) (log : List E) : Prop :=
  ∀ before event after, log = before ++ event :: after → caused event → after.countP closes = 1

theorem snoc_split (log before after : List E) (last event : E) (same : log ++ [last] = before ++ event :: after) :
    (log = before ∧ last = event ∧ after = []) ∨ ∃ shorter, after = shorter ++ [last] ∧ log = before ++ event :: shorter := by
  rcases List.eq_nil_or_concat after with rfl | ⟨shorter, final, rfl⟩
  · obtain ⟨logEq, lastEq⟩ := List.append_inj' same rfl
    exact .inl ⟨logEq, (List.cons.inj lastEq).1, rfl⟩
  · have grouped : log ++ [last] = (before ++ event :: shorter) ++ [final] := by simpa using same
    obtain ⟨logEq, lastEq⟩ := List.append_inj' grouped rfl
    obtain ⟨rfl, _⟩ := List.cons.inj lastEq
    exact .inr ⟨shorter, by simp, logEq⟩

theorem forall_snoc (holds : E → Prop) (log : List E) (last : E) (all : ∀ event ∈ log, holds event) (new : holds last) :
    ∀ event ∈ log ++ [last], holds event :=
  List.forall_mem_append.mpr ⟨all, List.forall_mem_singleton.mpr new⟩

theorem one_owner_snoc {K O : Type} (key : E → K) (owner : E → O) (log : List E) (last : E)
    (one : ∀ event ∈ log, ∀ other ∈ log, key event = key other → owner event = owner other)
    (own : ∀ event ∈ log, key event = key last → owner event = owner last) :
    ∀ event ∈ log ++ [last], ∀ other ∈ log ++ [last], key event = key other → owner event = owner other := by
  apply forall_snoc
  · intro event member
    exact forall_snoc _ log last (one event member) (own event member)
  · apply forall_snoc
    · exact fun other member same => (own other member same.symm).symm
    · exact fun _ => rfl

theorem each_supported_nil (support : List E → E → Prop) : EachSupported support [] := by
  intro before event after same
  simp at same

theorem each_supported_snoc (support : List E → E → Prop) (log : List E) (last : E)
    (supported : EachSupported support log) (justified : support log last) : EachSupported support (log ++ [last]) := by
  intro before event after same
  rcases snoc_split log before after last event same with ⟨rfl, rfl, _⟩ | ⟨shorter, _, logEq⟩
  · exact justified
  · exact supported before event shorter logEq

theorem each_preceded_nil (opens closes : E → Prop) : EachPreceded opens closes [] := by
  intro before event after same
  simp at same

theorem each_preceded_snoc (opens closes : E → Prop) (log : List E) (last : E) (preceded : EachPreceded opens closes log)
    (opened : closes last → (∃ opening ∈ log, opens opening) ∧ ∀ other ∈ log, ¬ closes other) :
    EachPreceded opens closes (log ++ [last]) := by
  apply each_supported_snoc _ _ _ preceded
  intro closing
  obtain ⟨⟨opening, member, opens⟩, unclosed⟩ := opened closing
  obtain ⟨earlier, between, rfl⟩ := List.append_of_mem member
  exact ⟨earlier, opening, between, rfl, opens, fun other inside => unclosed other (by simp [inside])⟩

theorem each_followed_once_snoc (caused : E → Prop) (closes : E → Bool) (log : List E) (last : E)
    (quiet : ¬ caused last)
    (followed : (closes last = true ∧ ∀ other ∈ log, closes other = false) ∨
      (closes last = false ∧ EachFollowedOnce caused closes log)) :
    EachFollowedOnce caused closes (log ++ [last]) := by
  intro before event after same cause
  rcases snoc_split log before after last event same with ⟨_, rfl, _⟩ | ⟨shorter, rfl, logEq⟩
  · exact False.elim (quiet cause)
  · rw [List.countP_append]
    rcases followed with ⟨closing, unclosed⟩ | ⟨open_, followed⟩
    · have none : shorter.countP closes = 0 := by
        rw [List.countP_eq_zero]
        intro other member
        rw [unclosed other (by simp [logEq, member])]
        simp
      simp [none, closing]
    · simp [followed before event shorter logEq cause, open_]

theorem since_snoc (opens closes : E → Prop) (log : List E) (last : E) :
    Since opens closes (log ++ [last]) ↔ opens last ∨ (Since opens closes log ∧ ¬ closes last) := by
  constructor
  · intro since
    obtain ⟨before, opening, after, same, opened, unclosed⟩ := since
    rcases snoc_split log before after last opening same with ⟨_, rfl, _⟩ | ⟨shorter, rfl, logEq⟩
    · exact .inl opened
    · obtain ⟨earlier, now⟩ := List.forall_mem_append.mp unclosed
      exact .inr ⟨⟨before, opening, shorter, logEq, opened, earlier⟩, now last (List.mem_singleton.mpr rfl)⟩
  · intro now
    rcases now with opened | ⟨⟨before, opening, after, rfl, opened, unclosed⟩, kept⟩
    · exact ⟨log, last, [], rfl, opened, by simp⟩
    · exact ⟨before, opening, after ++ [last], by simp, opened, forall_snoc _ after last unclosed kept⟩

-- What every opening action makes true and every closing one false.
theorem run_holds_iff_since {S : Type} (step : S → E → S) (holds : S → Prop) (opens closes : E → Prop)
    (exactly : ∀ s action, holds (step s action) ↔ opens action ∨ (holds s ∧ ¬ closes action)) (s : S)
    (initial : ¬ holds s) (actions : List E) : holds (Runs.run step s actions) ↔ Since opens closes actions := by
  induction actions using List.reverseRecOn with
  | nil => exact ⟨fun now => absurd now initial, fun ⟨before, opening, after, same, _⟩ => by simp at same⟩
  | append_singleton earlier last ih =>
      rw [Runs.run_append, Runs.run_cons, Runs.run_nil, exactly, since_snoc, ih]

end EventLog
