import Mathlib.Data.List.Basic

set_option autoImplicit false

namespace Runs

variable {S T A : Type}

def run (step : S → A → S) (s : S) (actions : List A) : S := actions.foldl step s

def Along (step : S → A → S) (allowed : S → A → Prop) : S → List A → Prop
  | _, [] => True
  | s, action :: rest => allowed s action ∧ Along step allowed (step s action) rest

instance decidableAlong (step : S → A → S) (allowed : S → A → Prop) [∀ s action, Decidable (allowed s action)] :
    ∀ (s : S) (actions : List A), Decidable (Along step allowed s actions)
  | _, [] => isTrue trivial
  | s, action :: rest =>
      have := decidableAlong step allowed (step s action) rest
      inferInstanceAs (Decidable (allowed s action ∧ Along step allowed (step s action) rest))

@[simp] theorem run_nil (step : S → A → S) (s : S) : run step s [] = s := rfl

@[simp] theorem run_cons (step : S → A → S) (s : S) (action : A) (rest : List A) :
    run step s (action :: rest) = run step (step s action) rest := rfl

theorem run_append (step : S → A → S) (s : S) (a b : List A) : run step s (a ++ b) = run step (run step s a) b :=
  List.foldl_append

theorem along_of_forall (step : S → A → S) (permitted : A → Prop) (s : S) (actions : List A)
    (every : ∀ action ∈ actions, permitted action) : Along step (fun _ action => permitted action) s actions := by
  induction actions generalizing s with
  | nil => trivial
  | cons action rest ih =>
      exact ⟨every action (by simp), ih (step s action) fun other member => every other (by simp [member])⟩

theorem invariant_along (step : S → A → S) (allowed : S → A → Prop) (inv : S → Prop)
    (preserved : ∀ s action, inv s → allowed s action → inv (step s action)) (s : S) (actions : List A)
    (start : inv s) (along : Along step allowed s actions) : inv (run step s actions) := by
  induction actions generalizing s with
  | nil => exact start
  | cons action rest ih => exact ih (step s action) (preserved s action start along.1) along.2

theorem invariant_run (step : S → A → S) (inv : S → Prop) (preserved : ∀ s action, inv s → inv (step s action))
    (s : S) (actions : List A) (start : inv s) : inv (run step s actions) := by
  induction actions generalizing s with
  | nil => exact start
  | cons action rest ih => exact ih (step s action) (preserved s action start)

theorem along_mono (step : S → A → S) (inv : S → Prop) (allowed result : S → A → Prop)
    (preserved : ∀ s action, inv s → allowed s action → inv (step s action))
    (follows : ∀ s action, inv s → allowed s action → result s action) (s : S) (actions : List A)
    (start : inv s) (along : Along step allowed s actions) : Along step result s actions := by
  induction actions generalizing s with
  | nil => trivial
  | cons action rest ih =>
      exact ⟨follows s action start along.1, ih (step s action) (preserved s action start along.1) along.2⟩

theorem along_iff_splits (step : S → A → S) (allowed : S → A → Prop) (s : S) (actions : List A) :
    Along step allowed s actions ↔
      ∀ before action after, actions = before ++ action :: after → allowed (run step s before) action := by
  induction actions generalizing s with
  | nil =>
      refine ⟨fun _ before action after same => ?_, fun _ => trivial⟩
      simp at same
  | cons first rest ih =>
      constructor
      · intro along before action after same
        cases before with
        | nil =>
            obtain ⟨rfl, _⟩ := List.cons.inj same
            exact along.1
        | cons head before =>
            obtain ⟨rfl, tail⟩ := List.cons.inj same
            exact (ih _).mp along.2 before action after tail
      · intro splits
        exact ⟨splits [] first rest rfl,
          (ih _).mpr fun before action after same => splits (first :: before) action after (congrArg (first :: ·) same)⟩

-- The property holds in every state the run reaches.
def Always (step : S → A → S) (holds : S → Prop) : S → List A → Prop
  | s, [] => holds s
  | s, action :: rest => holds s ∧ Always step holds (step s action) rest

theorem always_start (step : S → A → S) (holds : S → Prop) (s : S) (actions : List A)
    (always : Always step holds s actions) : holds s := by
  cases actions with
  | nil => exact always
  | cons action rest => exact always.1

theorem always_iff_reached (step : S → A → S) (holds : S → Prop) (s : S) (actions : List A) :
    Always step holds s actions ↔ ∀ before after, actions = before ++ after → holds (run step s before) := by
  induction actions generalizing s with
  | nil =>
      refine ⟨fun always before after same => ?_, fun reached => reached [] [] rfl⟩
      obtain ⟨rfl, rfl⟩ := List.append_eq_nil_iff.mp same.symm
      exact always
  | cons action rest ih =>
      refine ⟨fun always before after same => ?_, fun reached => ⟨reached [] _ rfl, (ih _).mpr fun before after same => ?_⟩⟩
      · cases before with
        | nil => exact always.1
        | cons first before =>
            obtain ⟨rfl, tail⟩ := List.cons.inj same
            exact (ih _).mp always.2 before after tail
      · exact reached (action :: before) after (congrArg (action :: ·) same)

theorem always_run (step : S → A → S) (holds : S → Prop) (s : S) (actions : List A)
    (always : Always step holds s actions) : holds (run step s actions) :=
  (always_iff_reached step holds s actions).mp always actions [] (List.append_nil actions).symm

theorem always_along (step : S → A → S) (allowed : S → A → Prop) (inv : S → Prop)
    (preserved : ∀ s action, inv s → allowed s action → inv (step s action)) (s : S) (actions : List A)
    (start : inv s) (along : Along step allowed s actions) : Always step inv s actions := by
  induction actions generalizing s with
  | nil => exact start
  | cons action rest ih => exact ⟨start, ih (step s action) (preserved s action start along.1) along.2⟩

-- Where one step breaks the property exactly when it is not allowed, so does a run.
theorem always_iff_along (step : S → A → S) (inv holds : S → Prop) (allowed : S → A → Prop)
    (preserved : ∀ s action, inv s → inv (step s action))
    (exactly : ∀ s action, inv s → holds s → (holds (step s action) ↔ allowed s action)) (s : S) (actions : List A)
    (start : inv s) (initial : holds s) : Always step holds s actions ↔ Along step allowed s actions := by
  induction actions generalizing s with
  | nil => exact ⟨fun _ => trivial, fun _ => initial⟩
  | cons action rest ih =>
      have one := exactly s action start initial
      refine ⟨fun always => ?_, fun along => ⟨initial, ?_⟩⟩
      · have next := always_start step holds (step s action) rest always.2
        exact ⟨one.mp next, (ih _ (preserved s action start) next).mp always.2⟩
      · exact (ih _ (preserved s action start) (one.mpr along.1)).mpr along.2

-- Both runs take every action, and each action is allowed where the first run
-- finds it.
theorem simulation_along (step : S → A → S) (other : T → A → T) (allowed : S → A → Prop) (related : S → T → Prop)
    (followed : ∀ s t action, related s t → allowed s action → related (step s action) (other t action))
    (s : S) (t : T) (actions : List A) (start : related s t) (along : Along step allowed s actions) :
    related (run step s actions) (run other t actions) := by
  induction actions generalizing s t with
  | nil => exact start
  | cons action rest ih => exact ih _ _ (followed s t action start along.1) along.2

-- The second run takes only the kept actions: a dropped action of the first
-- run must leave the relation alone.
theorem simulation_filter (step : S → A → S) (other : T → A → T) (keep : A → Bool) (related : S → T → Prop)
    (kept : ∀ s t action, keep action = true → related s t → related (step s action) (other t action))
    (dropped : ∀ s t action, keep action = false → related s t → related (step s action) t)
    (s : S) (t : T) (actions : List A) (start : related s t) :
    related (run step s actions) (run other t (actions.filter keep)) := by
  induction actions generalizing s t with
  | nil => exact start
  | cons action rest ih =>
      cases choice : keep action with
      | true =>
          rw [List.filter_cons_of_pos choice]
          exact ih _ _ (kept s t action choice start)
      | false =>
          rw [List.filter_cons_of_neg (by simp [choice])]
          exact ih _ _ (dropped s t action choice start)

-- The actions of a run without those that are dropped in the state they find.
def kept (step : S → A → S) (drop : S → A → Bool) : S → List A → List A
  | _, [] => []
  | s, action :: rest =>
      if drop s action then kept step drop (step s action) rest else action :: kept step drop (step s action) rest

theorem simulation_kept (step : S → A → S) (other : T → A → T) (drop : S → A → Bool) (related : S → T → Prop)
    (followed : ∀ s t action, drop s action = false → related s t → related (step s action) (other t action))
    (dropped : ∀ s t action, drop s action = true → related s t → related (step s action) t)
    (s : S) (t : T) (actions : List A) (start : related s t) :
    related (run step s actions) (run other t (kept step drop s actions)) := by
  induction actions generalizing s t with
  | nil => exact start
  | cons action rest ih =>
      rw [kept]
      cases choice : drop s action with
      | true => exact ih _ _ (dropped s t action choice start)
      | false => exact ih _ _ (followed s t action choice start)

-- The second run takes, for each action of the first one, what the action comes to
-- in the state it finds.
def expand {B : Type} (step : S → A → S) (meaning : S → A → List B) : S → List A → List B
  | _, [] => []
  | s, action :: rest => meaning s action ++ expand step meaning (step s action) rest

theorem simulation_expand {B : Type} (step : S → A → S) (other : T → B → T) (meaning : S → A → List B) (related : S → T → Prop)
    (followed : ∀ s t action, related s t → related (step s action) (run other t (meaning s action)))
    (s : S) (t : T) (actions : List A) (start : related s t) :
    related (run step s actions) (run other t (expand step meaning s actions)) := by
  induction actions generalizing s t with
  | nil => exact start
  | cons action rest ih =>
      rw [expand, run_append]
      exact ih _ _ (followed s t action start)

-- What an expansion holds has been meant in some state of the run.
theorem expand_source {B : Type} (step : S → A → S) (meaning : S → A → List B) (s : S) (actions : List A) (item : B)
    (member : item ∈ expand step meaning s actions) :
    ∃ before action after, actions = before ++ action :: after ∧ item ∈ meaning (run step s before) action := by
  induction actions generalizing s with
  | nil => cases member
  | cons action rest ih =>
      rcases List.mem_append.mp member with now | later
      · exact ⟨[], action, rest, rfl, now⟩
      · obtain ⟨before, next, after, rfl, meant⟩ := ih _ later
        exact ⟨action :: before, next, after, rfl, meant⟩

end Runs
