/-
Tasks that wait in a queue for a state.

`Drains state tasks final` says that each task is enabled when its turn comes and
that the state is `final` once all of them have been applied.  A property of the
final state is kept by adding an enabled task at the end, and a worker may apply
tasks from the front.
-/

namespace QuorumKit

namespace Pending

section Queue

variable {S T : Type} (apply : T → S → S) (Enabled : T → S → Prop)

def Drains : S → List T → S → Prop
  | state, [], final => state = final
  | state, task :: rest, final => Enabled task state ∧ Drains (apply task state) rest final

variable {apply Enabled}

theorem drains_append {first second : List T} : ∀ {state final : S},
    Drains apply Enabled state (first ++ second) final ↔
      ∃ middle, Drains apply Enabled state first middle ∧
        Drains apply Enabled middle second final := by
  induction first with
  | nil =>
      intro state final
      constructor
      · exact fun drains => ⟨state, rfl, drains⟩
      · rintro ⟨middle, same, drains⟩
        have same : state = middle := same
        subst same
        exact drains
  | cons task rest ih =>
      intro state final
      constructor
      · rintro ⟨enabled, drains⟩
        obtain ⟨middle, before, after⟩ := ih.mp drains
        exact ⟨middle, ⟨enabled, before⟩, after⟩
      · rintro ⟨middle, ⟨enabled, before⟩, after⟩
        exact ⟨enabled, ih.mpr ⟨middle, before, after⟩⟩

theorem Drains.snoc {tasks : List T} {state final : S} {task : T}
    (drains : Drains apply Enabled state tasks final) (enabled : Enabled task final) :
    Drains apply Enabled state (tasks ++ [task]) (apply task final) :=
  drains_append.mpr ⟨final, drains, enabled, rfl⟩

theorem Drains.invariant (Holds : S → Prop) {tasks : List T}
    (preserved : ∀ task, task ∈ tasks → ∀ state, Holds state → Enabled task state →
      Holds (apply task state)) :
    ∀ {state final : S}, Holds state → Drains apply Enabled state tasks final → Holds final := by
  induction tasks with
  | nil =>
      intro state final holds drains
      have same : state = final := drains
      exact same ▸ holds
  | cons task rest ih =>
      intro state final holds drains
      obtain ⟨enabled, later⟩ := drains
      exact ih (fun task member => preserved task (List.mem_cons_of_mem _ member))
        (preserved task List.mem_cons_self state holds enabled) later

theorem Drains.foldl {tasks : List T} : ∀ {state final : S},
    Drains apply Enabled state tasks final →
      tasks.foldl (fun state task => apply task state) state = final := by
  induction tasks with
  | nil => exact fun drains => drains
  | cons task rest ih => exact fun drains => ih drains.2

theorem drains_foldl (always : ∀ task state, Enabled task state) (tasks : List T) :
    ∀ state : S, Drains apply Enabled state tasks
      (tasks.foldl (fun state task => apply task state) state) := by
  induction tasks with
  | nil => exact fun _ => rfl
  | cons task rest ih => exact fun state => ⟨always task state, ih (apply task state)⟩

variable (apply)

def Ensures (Wanted : T → S → Prop) : S → List T → Prop
  | _, [] => True
  | state, task :: rest =>
      Wanted task (apply task state) ∧ Ensures Wanted (apply task state) rest

variable {apply}

theorem Ensures.snoc {Wanted : T → S → Prop} {tasks : List T} {task : T} :
    ∀ {state final : S}, Ensures apply Wanted state tasks →
      Drains apply Enabled state tasks final → Wanted task (apply task final) →
      Ensures apply Wanted state (tasks ++ [task]) := by
  induction tasks with
  | nil =>
      intro state final _ drains wanted
      have same : state = final := drains
      subst same
      exact ⟨wanted, trivial⟩
  | cons head rest ih =>
      intro state final ensures drains wanted
      exact ⟨ensures.1, ih ensures.2 drains.2 wanted⟩

theorem Ensures.drop {Wanted : T → S → Prop} {first second : List T} : ∀ {state : S},
    Ensures apply Wanted state (first ++ second) →
      Ensures apply Wanted (first.foldl (fun state task => apply task state) state) second := by
  induction first with
  | nil => exact fun ensures => ensures
  | cons task rest ih => exact fun ensures => ih ensures.2

theorem Ensures.mono {Wanted Weaker : T → S → Prop}
    (weaker : ∀ task state, Wanted task state → Weaker task state) {tasks : List T} :
    ∀ {state : S}, Ensures apply Wanted state tasks → Ensures apply Weaker state tasks := by
  induction tasks with
  | nil => exact fun _ => trivial
  | cons task rest ih =>
      intro state ensures
      exact ⟨weaker _ _ ensures.1, ih ensures.2⟩

variable (apply)

def Throughout (Holds : S → Prop) : S → List T → Prop
  | state, [] => Holds state
  | state, task :: rest => Holds state ∧ Throughout Holds (apply task state) rest

def Promises (Promised : T → S → Prop) : S → List T → Prop
  | _, [] => True
  | state, task :: rest =>
      Throughout apply (Promised task) (apply task state) rest ∧
        Promises Promised (apply task state) rest

variable {apply}

theorem Throughout.now {Holds : S → Prop} {state : S} {tasks : List T}
    (throughout : Throughout apply Holds state tasks) : Holds state := by
  cases tasks with
  | nil => exact throughout
  | cons task rest => exact throughout.1

theorem Throughout.mono {Holds Weaker : S → Prop} (weaker : ∀ state, Holds state → Weaker state)
    {tasks : List T} : ∀ {state : S}, Throughout apply Holds state tasks →
      Throughout apply Weaker state tasks := by
  induction tasks with
  | nil => exact fun throughout => weaker _ throughout
  | cons task rest ih => exact fun throughout => ⟨weaker _ throughout.1, ih throughout.2⟩

theorem throughout_append {Holds : S → Prop} {first second : List T} : ∀ {state : S},
    Throughout apply Holds state (first ++ second) ↔
      Throughout apply Holds state first ∧
        Throughout apply Holds (first.foldl (fun state task => apply task state) state) second := by
  induction first with
  | nil => exact fun {_} => ⟨fun throughout => ⟨throughout.now, throughout⟩, fun both => both.2⟩
  | cons task rest ih =>
      intro state
      constructor
      · rintro ⟨holds, later⟩
        obtain ⟨before, after⟩ := ih.mp later
        exact ⟨⟨holds, before⟩, after⟩
      · rintro ⟨⟨holds, before⟩, after⟩
        exact ⟨holds, ih.mpr ⟨before, after⟩⟩

theorem Throughout.final {Holds : S → Prop} {tasks : List T} : ∀ {state : S},
    Throughout apply Holds state tasks →
      Holds (tasks.foldl (fun state task => apply task state) state) := by
  induction tasks with
  | nil => exact fun throughout => throughout
  | cons task rest ih => exact fun throughout => ih throughout.2

theorem Promises.mono {Promised Weaker : T → S → Prop} {tasks : List T} :
    ∀ {state : S}, (∀ task ∈ tasks, ∀ state, Promised task state → Weaker task state) →
      Promises apply Promised state tasks → Promises apply Weaker state tasks := by
  induction tasks with
  | nil => exact fun _ _ => trivial
  | cons task rest ih =>
      intro state weaker promises
      exact ⟨promises.1.mono (weaker task List.mem_cons_self),
        ih (fun task member => weaker task (List.mem_cons_of_mem _ member)) promises.2⟩

theorem Throughout.of_all {Holds : S → Prop} (all : ∀ state, Holds state) (tasks : List T) :
    ∀ state : S, Throughout apply Holds state tasks := by
  induction tasks with
  | nil => exact all
  | cons task rest ih => exact fun state => ⟨all state, ih _⟩

theorem promises_of_all {Promised : T → S → Prop} {tasks : List T} :
    (∀ task ∈ tasks, ∀ state, Promised task state) →
      ∀ state : S, Promises apply Promised state tasks := by
  induction tasks with
  | nil => exact fun _ _ => trivial
  | cons task rest ih =>
      intro all state
      exact ⟨.of_all (all task List.mem_cons_self) rest _,
        ih (fun task member => all task (List.mem_cons_of_mem _ member)) _⟩

theorem Promises.append {Promised : T → S → Prop} {first second : List T} : ∀ {state : S},
    Promises apply Promised state first →
      (∀ task ∈ first,
        Promised task (first.foldl (fun state task => apply task state) state) →
        Throughout apply (Promised task)
          (first.foldl (fun state task => apply task state) state) second) →
      Promises apply Promised (first.foldl (fun state task => apply task state) state) second →
      Promises apply Promised state (first ++ second) := by
  induction first with
  | nil => exact fun _ _ promises => promises
  | cons task rest ih =>
      intro state promises kept added
      refine ⟨throughout_append.mpr ⟨promises.1, kept task List.mem_cons_self promises.1.final⟩, ?_⟩
      exact ih promises.2 (fun task member => kept task (List.mem_cons_of_mem _ member)) added

/-! ### Tasks that wait -/

variable {waiting rest : List T} {task : T}

theorem foldl_overtake (state : S) : (∀ other ∈ waiting, ∀ state, apply other state = state) →
    (waiting ++ rest).foldl (fun state task => apply task state) (apply task state) =
      (waiting ++ task :: rest).foldl (fun state task => apply task state) state := by
  induction waiting with
  | nil => exact fun _ => rfl
  | cons other waiting ih =>
      intro idle
      rw [List.cons_append, List.cons_append, List.foldl_cons, List.foldl_cons,
        idle other List.mem_cons_self, idle other List.mem_cons_self]
      exact ih (fun other member => idle other (List.mem_cons_of_mem _ member))

theorem Throughout.overtake {Holds : S → Prop} : ∀ {state : S},
    (∀ other ∈ waiting, ∀ state, apply other state = state) →
    Throughout apply Holds state (waiting ++ task :: rest) →
      Throughout apply Holds (apply task state) (waiting ++ rest) := by
  induction waiting with
  | nil => exact fun _ throughout => throughout.2
  | cons other waiting ih =>
      intro state idle throughout
      have later := throughout.2
      rw [idle other List.mem_cons_self] at later
      have passed := ih (fun other member => idle other (List.mem_cons_of_mem _ member)) later
      refine ⟨passed.now, ?_⟩
      rw [idle other List.mem_cons_self]
      exact passed

theorem Promises.overtake {Promised : T → S → Prop} : ∀ {state : S},
    (∀ other ∈ waiting, ∀ state, apply other state = state) →
    Promises apply Promised state (waiting ++ task :: rest) →
      Promises apply Promised (apply task state) (waiting ++ rest) := by
  induction waiting with
  | nil => exact fun _ promises => promises.2
  | cons other waiting ih =>
      intro state idle promises
      have idles := fun other member => idle other (List.mem_cons_of_mem _ member)
      obtain ⟨first, later⟩ := promises
      rw [idle other List.mem_cons_self] at first later
      refine ⟨?_, ?_⟩
      · rw [idle other List.mem_cons_self]
        exact first.overtake idles
      · rw [idle other List.mem_cons_self]
        exact ih idles later

end Queue

end Pending

end QuorumKit
