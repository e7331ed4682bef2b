/-
Transition systems with a partial step function.

An action is allowed in a state by what its caller promises; the step function
then says what happens, `none` standing for the end of the run.  Safety results
are stated over the states that are reachable by allowed actions.
-/

namespace QuorumKit

structure TransitionSystem (S A : Type) where
  init : S → Prop
  allowed : A → S → Prop
  step : A → S → Option S

namespace TransitionSystem

variable {S A : Type}

inductive Reachable (system : TransitionSystem S A) : S → Prop
  | start {state : S} (initial : system.init state) : Reachable system state
  | next {action : A} {before after : S} (reached : Reachable system before)
      (allowed : system.allowed action before) (stepped : system.step action before = some after) :
      Reachable system after

theorem Reachable.invariant {system : TransitionSystem S A} (Holds : S → Prop)
    (initially : ∀ state, system.init state → Holds state)
    (preserved : ∀ action before after, Holds before → system.allowed action before →
      system.step action before = some after → Holds after)
    {state : S} (reached : system.Reachable state) : Holds state := by
  induction reached with
  | start initial => exact initially _ initial
  | next _ allowed stepped ih => exact preserved _ _ _ ih allowed stepped

/-- The runs whose steps also meet a condition on the state before them. -/
def restrict (system : TransitionSystem S A) (condition : A → S → Prop) :
    TransitionSystem S A :=
  { system with allowed := fun action state => system.allowed action state ∧ condition action state }

theorem Reachable.of_restrict {system : TransitionSystem S A} {condition : A → S → Prop}
    {state : S} (reached : (system.restrict condition).Reachable state) :
    system.Reachable state := by
  induction reached with
  | start initial => exact .start initial
  | next _ allowed stepped ih => exact .next ih allowed.1 stepped

inductive Reaches (system : TransitionSystem S A) (before : S) : S → Prop
  | refl : Reaches system before before
  | next {action : A} {middle after : S} (reaches : Reaches system before middle)
      (allowed : system.allowed action middle) (stepped : system.step action middle = some after) :
      Reaches system before after

theorem Reachable.continue {system : TransitionSystem S A} {before after : S}
    (reached : system.Reachable before) (reaches : system.Reaches before after) :
    system.Reachable after := by
  induction reaches with
  | refl => exact reached
  | next _ allowed stepped ih => exact ih.next allowed stepped

theorem Reaches.keeps {system : TransitionSystem S A} {before after : S} (Holds : S → Prop)
    (reached : system.Reachable before) (reaches : system.Reaches before after)
    (kept : ∀ action middle last, system.Reachable middle → system.allowed action middle →
      system.step action middle = some last → Holds middle → Holds last)
    (holds : Holds before) : Holds after := by
  induction reaches with
  | refl => exact holds
  | next reaches allowed stepped ih =>
      exact kept _ _ _ (reached.continue reaches) allowed stepped ih

/-- The actions of the list lead from a state to another, each one allowed where it
is taken. -/
def Follows (system : TransitionSystem S A) : List A → S → S → Prop
  | [], before, after => before = after
  | action :: rest, before, after =>
      system.allowed action before ∧
        ∃ middle, system.step action before = some middle ∧ Follows system rest middle after

theorem Reachable.follows {system : TransitionSystem S A} (actions : List A) :
    ∀ {before after : S}, system.Reachable before → system.Follows actions before after →
      system.Reachable after := by
  induction actions with
  | nil =>
      intro before after reached same
      exact same ▸ reached
  | cons action rest ih =>
      intro before after reached follows
      obtain ⟨allowed, middle, stepped, follows⟩ := follows
      exact ih (reached.next allowed stepped) follows

theorem Reaches.follows {system : TransitionSystem S A} {start : S} (actions : List A) :
    ∀ {before after : S}, system.Reaches start before → system.Follows actions before after →
      system.Reaches start after := by
  induction actions with
  | nil =>
      intro before after reaches same
      exact same ▸ reaches
  | cons action rest ih =>
      intro before after reaches follows
      obtain ⟨allowed, middle, stepped, follows⟩ := follows
      exact ih (reaches.next allowed stepped) follows

end TransitionSystem

end QuorumKit
