/-
A timer that schedules itself again, `braft/repeated_timer_task.cpp`.

Deleting a timer fails once it has fired, so a firing can be anywhere between
its timer and the end of `run` while the public functions are called.  The
timers that are scheduled, the firings on their way and the calls of
`on_destroy` are kept beside the four flags.
-/

import Mathlib.Tactic.SplitIfs
import QuorumKit.Library.TransitionSystem

namespace QuorumKit

/-- A firing before its first lock, or inside `run`. -/
inductive TimerFiring where
  | spawned
  | invoked
deriving DecidableEq

structure RepeatedTimerTask where
  stopped : Bool := true
  running : Bool := false
  destroyed : Bool := false
  invoking : Bool := false
  timer : Nat := 0
  nextTimer : Nat := 1
  scheduled : List Nat := []
  firings : List TimerFiring := []
  destroying : Nat := 0
  onDestroyCalls : Nat := 0
  checkFailed : Bool := false
deriving DecidableEq

namespace RepeatedTimerTask

variable (task : RepeatedTimerTask)

def check (holds : Bool) : RepeatedTimerTask :=
  if holds then task else { task with checkFailed := true }

/-- `bthread_timer_del`, which succeeds for a timer that has not fired. -/
def timerDel : Bool × RepeatedTimerTask :=
  if task.timer ∈ task.scheduled then
    (true, { task with scheduled := task.scheduled.erase task.timer })
  else (false, task)

/-- The static `on_timedout`: a firing is on its way. -/
def spawn : RepeatedTimerTask := { task with firings := .spawned :: task.firings }

/-- `added` says whether `bthread_timer_add` succeeds. -/
def schedule (added : Bool) : RepeatedTimerTask :=
  if added then
    { task with
      timer := task.nextTimer
      nextTimer := task.nextTimer + 1
      scheduled := task.nextTimer :: task.scheduled }
  else task.spawn

def stop : RepeatedTimerTask :=
  if task.stopped then task
  else
    let task := { task with stopped := true }
    let task := task.check task.running
    match task.timerDel with
    | (true, task) => { task with running := false }
    | (false, task) => task

def start (added : Bool) : RepeatedTimerTask :=
  if task.destroyed then task
  else if ¬ task.stopped then task
  else
    let task := { task with stopped := false }
    if task.running then task
    else { task with running := true }.schedule added

def runOnceNow : RepeatedTimerTask :=
  match task.timerDel with
  | (true, task) => task.spawn
  | (false, task) => task

def reset (added : Bool) : RepeatedTimerTask :=
  if task.stopped then task
  else
    let task := task.check task.running
    match task.timerDel with
    | (true, task) => task.schedule added
    | (false, task) => task

/-- `on_destroy` is called after the lock is given back. -/
def callOnDestroy : RepeatedTimerTask := { task with destroying := task.destroying + 1 }

def destroy : RepeatedTimerTask :=
  if task.destroyed then task
  else
    let task := { task with destroyed := true }
    if ¬ task.running then (task.check task.stopped).callOnDestroy
    else if task.stopped then task
    else
      let task := { task with stopped := true }
      match task.timerDel with
      | (true, task) => { task with running := false }.callOnDestroy
      | (false, task) => task.check task.running

/-- `on_timedout` from its second lock on. -/
def onTimedout (added : Bool) : RepeatedTimerTask :=
  let task := { task with invoking := false }
  let task := task.check task.running
  if task.stopped then
    let task := { task with running := false }
    if task.destroyed then task.callOnDestroy else task
  else task.schedule added

end RepeatedTimerTask

inductive TimerAction where
  | start (added : Bool)
  | stop
  | reset (added : Bool)
  | runOnceNow
  | destroy
  | expire (timer : Nat)
  | invoke
  | finish (added : Bool)
  | onDestroy

namespace RepeatedTimerTask

def step : TimerAction → RepeatedTimerTask → Option RepeatedTimerTask
  | .start added, task => some (task.start added)
  | .stop, task => some task.stop
  | .reset added, task => some (task.reset added)
  | .runOnceNow, task => some task.runOnceNow
  | .destroy, task => some task.destroy
  | .expire timer, task =>
      if timer ∈ task.scheduled then
        some { task with scheduled := task.scheduled.erase timer }.spawn
      else none
  | .invoke, task =>
      if .spawned ∈ task.firings then
        some
          { task with
            invoking := true
            firings := .invoked :: task.firings.erase .spawned }
      else none
  | .finish added, task =>
      if .invoked ∈ task.firings then
        some ({ task with firings := task.firings.erase .invoked }.onTimedout added)
      else none
  | .onDestroy, task =>
      if 0 < task.destroying then
        some
          { task with
            destroying := task.destroying - 1
            onDestroyCalls := task.onDestroyCalls + 1 }
      else none

/-- The state after `init`, then anything in any order. -/
def system : TransitionSystem RepeatedTimerTask TimerAction where
  init task := task = {}
  allowed _ _ := True
  step := step

/-- The timers and firings that will lead to another `run`. -/
def chains (task : RepeatedTimerTask) : Nat := task.scheduled.length + task.firings.length

structure WellBehaved (task : RepeatedTimerTask) : Prop where
  single : task.chains ≤ 1
  live : task.running = true ↔ task.chains = 1
  oneRun : task.firings.count .invoked ≤ 1
  destroyedOnce : task.destroying + task.onDestroyCalls ≤ 1
  destroyedAtLast : task.destroyed = true → task.firings = [] → task.destroying = 0 →
    task.onDestroyCalls = 1
  noRunLeft : 0 < task.onDestroyCalls → task.chains = 0
  checks : task.checkFailed = false

inductive Chain (task : RepeatedTimerTask) : Prop where
  | idle (running : task.running = false) (scheduled : task.scheduled = [])
      (firings : task.firings = [])
  | waiting (running : task.running = true) (stopped : task.stopped = false)
      (scheduled : task.scheduled = [task.timer]) (firings : task.firings = [])
  | fired (running : task.running = true) (scheduled : task.scheduled = [])
      (firing : TimerFiring) (firings : task.firings = [firing])

structure Consistent (task : RepeatedTimerTask) : Prop where
  chain : Chain task
  started : task.stopped = false → task.running = true
  ended : task.destroyed = true → task.stopped = true
  destroys : task.destroying + task.onDestroyCalls =
    if task.destroyed = true ∧ task.running = false then 1 else 0
  checks : task.checkFailed = false

theorem Consistent.wellBehaved {task : RepeatedTimerTask} (consistent : Consistent task) :
    WellBehaved task := by
  have destroys := consistent.destroys
  cases consistent.chain with
  | idle running scheduled firings =>
      rw [running] at destroys
      exact
        { single := by simp [chains, scheduled, firings]
          live := by simp [chains, running, scheduled, firings]
          oneRun := by simp [firings]
          destroyedOnce := by
            rw [destroys]
            split_ifs <;> omega
          destroyedAtLast := by
            intro destroyed _ executed
            rw [if_pos ⟨destroyed, rfl⟩, executed] at destroys
            omega
          noRunLeft := by simp [chains, scheduled, firings]
          checks := consistent.checks }
  | waiting running stopped scheduled firings =>
      rw [running, if_neg (fun both => Bool.noConfusion both.2)] at destroys
      exact
        { single := by simp [chains, scheduled, firings]
          live := by simp [chains, running, scheduled, firings]
          oneRun := by simp [firings]
          destroyedOnce := by omega
          destroyedAtLast := by
            intro destroyed
            have halted := consistent.ended destroyed
            rw [stopped] at halted
            cases halted
          noRunLeft := by omega
          checks := consistent.checks }
  | fired running scheduled firing firings =>
      rw [running, if_neg (fun both => Bool.noConfusion both.2)] at destroys
      exact
        { single := by simp [chains, scheduled, firings]
          live := by simp [chains, running, scheduled, firings]
          oneRun := by
            rw [firings]
            exact List.count_le_length
          destroyedOnce := by omega
          destroyedAtLast := by
            intro _ none
            rw [firings] at none
            cases none
          noRunLeft := by omega
          checks := consistent.checks }

theorem timerDel_none {task : RepeatedTimerTask} (scheduled : task.scheduled = []) :
    task.timerDel = (false, task) := by
  have absent : task.timer ∉ task.scheduled := by
    rw [scheduled]
    exact List.not_mem_nil
  rw [timerDel, if_neg absent]

theorem timerDel_waiting {task : RepeatedTimerTask} (scheduled : task.scheduled = [task.timer]) :
    task.timerDel = (true, { task with scheduled := [] }) := by
  have present : task.timer ∈ task.scheduled := by
    rw [scheduled]
    exact List.mem_cons_self ..
  rw [timerDel, if_pos present, scheduled, List.erase_cons_head]

theorem check_true (task : RepeatedTimerTask) : task.check true = task := rfl

theorem consistent_schedule {task : RepeatedTimerTask} (added : Bool)
    (running : task.running = true) (stopped : task.stopped = false)
    (scheduled : task.scheduled = []) (firings : task.firings = [])
    (ended : task.destroyed = true → task.stopped = true)
    (destroys : task.destroying + task.onDestroyCalls = 0)
    (checks : task.checkFailed = false) : Consistent (task.schedule added) := by
  have counted : task.destroying + task.onDestroyCalls =
      if task.destroyed = true ∧ task.running = false then 1 else 0 := by
    rw [running, if_neg (fun both => Bool.noConfusion both.2)]
    exact destroys
  cases added with
  | true =>
      exact
        { chain := .waiting running stopped
            (congrArg (task.nextTimer :: ·) scheduled) firings
          started := fun _ => running
          ended := ended
          destroys := counted
          checks := checks }
  | false =>
      exact
        { chain := .fired running scheduled .spawned (congrArg (TimerFiring.spawned :: ·) firings)
          started := fun _ => running
          ended := ended
          destroys := counted
          checks := checks }

theorem consistent_idle {task : RepeatedTimerTask} (running : task.running = false)
    (stopped : task.stopped = true) (scheduled : task.scheduled = [])
    (firings : task.firings = [])
    (destroys : task.destroying + task.onDestroyCalls = if task.destroyed = true then 1 else 0)
    (checks : task.checkFailed = false) : Consistent task where
  chain := .idle running scheduled firings
  started := by
    intro notStopped
    rw [stopped] at notStopped
    cases notStopped
  ended := fun _ => stopped
  destroys := by
    rw [destroys, running]
    simp only [and_true]
  checks := checks

theorem consistent_fired {task : RepeatedTimerTask} (running : task.running = true)
    (scheduled : task.scheduled = []) {firing : TimerFiring} (firings : task.firings = [firing])
    (ended : task.destroyed = true → task.stopped = true)
    (destroys : task.destroying + task.onDestroyCalls = 0)
    (checks : task.checkFailed = false) : Consistent task where
  chain := .fired running scheduled firing firings
  started := fun _ => running
  ended := ended
  destroys := by
    rw [running, if_neg (fun both => Bool.noConfusion both.2)]
    exact destroys
  checks := checks

variable {task : RepeatedTimerTask}

theorem Consistent.destroys_running (consistent : Consistent task)
    (running : task.running = true) : task.destroying + task.onDestroyCalls = 0 := by
  have destroys := consistent.destroys
  rwa [running, if_neg (fun both => Bool.noConfusion both.2)] at destroys

theorem Consistent.destroys_idle (consistent : Consistent task)
    (running : task.running = false) :
    task.destroying + task.onDestroyCalls = if task.destroyed = true then 1 else 0 := by
  have destroys := consistent.destroys
  rw [running] at destroys
  simpa only [and_true] using destroys

theorem Consistent.alive (consistent : Consistent task) (stopped : task.stopped = false) :
    task.destroyed = false := by
  cases destroyed : task.destroyed with
  | false => rfl
  | true =>
      have halted := consistent.ended destroyed
      rw [stopped] at halted
      cases halted

theorem Consistent.stop (consistent : Consistent task) : Consistent task.stop := by
  unfold RepeatedTimerTask.stop
  cases stopped : task.stopped with
  | true => simpa using consistent
  | false =>
      have running := consistent.started stopped
      have alive := consistent.alive stopped
      have destroys := consistent.destroys_running running
      simp only [Bool.false_eq_true, if_false, running, check_true]
      cases consistent.chain with
      | idle notRunning scheduled firings =>
          rw [running] at notRunning
          cases notRunning
      | waiting _ _ scheduled firings =>
          rw [timerDel_waiting]
          · dsimp only
            refine consistent_idle rfl rfl rfl firings ?_ consistent.checks
            rw [alive]
            exact destroys
          · exact scheduled
      | fired _ scheduled firing firings =>
          rw [timerDel_none]
          · dsimp only
            exact consistent_fired rfl scheduled firings (fun _ => rfl) destroys
              consistent.checks
          · exact scheduled

theorem Consistent.start (consistent : Consistent task) (added : Bool) :
    Consistent (task.start added) := by
  unfold RepeatedTimerTask.start
  cases destroyed : task.destroyed with
  | true => simpa using consistent
  | false =>
      cases stopped : task.stopped with
      | false => simpa using consistent
      | true =>
          simp only [Bool.false_eq_true, if_false, not_true_eq_false]
          cases consistent.chain with
          | idle running scheduled firings =>
              have destroys := consistent.destroys_idle running
              rw [destroyed] at destroys
              simp only [running, Bool.false_eq_true, if_false]
              refine consistent_schedule added rfl rfl scheduled firings ?_ destroys consistent.checks
              exact fun ended => Bool.noConfusion ended
          | waiting _ notStopped scheduled firings =>
              rw [stopped] at notStopped
              cases notStopped
          | fired running scheduled firing firings =>
              simp only [running, if_true]
              refine consistent_fired rfl scheduled firings ?_
                (consistent.destroys_running running) consistent.checks
              exact fun ended => Bool.noConfusion ended

theorem Consistent.runOnceNow (consistent : Consistent task) : Consistent task.runOnceNow := by
  unfold RepeatedTimerTask.runOnceNow
  cases consistent.chain with
  | idle running scheduled firings =>
      rw [timerDel_none scheduled]
      exact consistent
  | waiting running stopped scheduled firings =>
      rw [timerDel_waiting scheduled]
      dsimp only
      exact consistent_fired running rfl (congrArg (TimerFiring.spawned :: ·) firings)
        consistent.ended (consistent.destroys_running running) consistent.checks
  | fired running scheduled firing firings =>
      rw [timerDel_none scheduled]
      exact consistent

theorem Consistent.reset (consistent : Consistent task) (added : Bool) :
    Consistent (task.reset added) := by
  unfold RepeatedTimerTask.reset
  cases stopped : task.stopped with
  | true => simpa using consistent
  | false =>
      have running := consistent.started stopped
      simp only [Bool.false_eq_true, if_false, running, check_true]
      cases consistent.chain with
      | idle notRunning scheduled firings =>
          rw [running] at notRunning
          cases notRunning
      | waiting _ _ scheduled firings =>
          rw [timerDel_waiting scheduled]
          dsimp only
          exact consistent_schedule added running stopped rfl firings consistent.ended
            (consistent.destroys_running running) consistent.checks
      | fired _ scheduled firing firings =>
          rw [timerDel_none scheduled]
          exact consistent

theorem Consistent.destroy (consistent : Consistent task) : Consistent task.destroy := by
  unfold RepeatedTimerTask.destroy
  cases destroyed : task.destroyed with
  | true => simpa using consistent
  | false =>
      simp only [Bool.false_eq_true, if_false]
      cases consistent.chain with
      | idle running scheduled firings =>
          have stopped : task.stopped = true := by
            cases stopped : task.stopped with
            | true => rfl
            | false =>
                have started := consistent.started stopped
                rw [running] at started
                cases started
          have destroys := consistent.destroys_idle running
          rw [destroyed, if_neg Bool.false_ne_true] at destroys
          simp only [running, Bool.false_eq_true, not_false_eq_true, if_true, stopped, check_true]
          refine consistent_idle rfl rfl scheduled firings ?_ consistent.checks
          change task.destroying + 1 + task.onDestroyCalls = 1
          omega
      | waiting running stopped scheduled firings =>
          have destroys := consistent.destroys_running running
          simp only [running, not_true_eq_false, if_false, stopped, Bool.false_eq_true]
          rw [timerDel_waiting]
          · dsimp only
            refine consistent_idle rfl rfl rfl firings ?_ consistent.checks
            change task.destroying + 1 + task.onDestroyCalls = 1
            omega
          · exact scheduled
      | fired running scheduled firing firings =>
          have destroys := consistent.destroys_running running
          simp only [running, not_true_eq_false, if_false]
          cases stopped : task.stopped with
          | true =>
              simp only [if_true]
              exact consistent_fired rfl scheduled firings (fun _ => rfl) destroys
                consistent.checks
          | false =>
              simp only [Bool.false_eq_true, if_false]
              rw [timerDel_none]
              · simp only [check_true]
                exact consistent_fired rfl scheduled firings (fun _ => rfl) destroys
                  consistent.checks
              · exact scheduled

theorem Chain.of_firing (chain : Chain task) {firing : TimerFiring}
    (member : firing ∈ task.firings) :
    task.running = true ∧ task.scheduled = [] ∧ task.firings = [firing] := by
  cases chain with
  | idle running scheduled firings =>
      rw [firings] at member
      cases member
  | waiting running stopped scheduled firings =>
      rw [firings] at member
      cases member
  | fired running scheduled other firings =>
      rw [firings] at member
      rw [List.mem_singleton.mp member]
      exact ⟨running, scheduled, firings⟩

theorem Consistent.onTimedout (consistent : Consistent task) (added : Bool)
    (member : .invoked ∈ task.firings) :
    Consistent ({ task with firings := task.firings.erase .invoked }.onTimedout added) := by
  rcases consistent.chain.of_firing member with ⟨running, scheduled, firings⟩
  have destroys := consistent.destroys_running running
  have noneLeft : task.firings.erase .invoked = [] := by
    rw [firings]
    exact List.erase_cons_head ..
  unfold RepeatedTimerTask.onTimedout
  simp only [running, check_true]
  cases stopped : task.stopped with
  | false =>
      simp only [Bool.false_eq_true, if_false]
      refine consistent_schedule added rfl rfl scheduled noneLeft ?_ destroys consistent.checks
      intro ended
      have dead : task.destroyed = true := ended
      rw [consistent.alive stopped] at dead
      cases dead
  | true =>
      simp only [if_true]
      cases destroyed : task.destroyed with
      | true =>
          simp only [if_true]
          refine consistent_idle rfl rfl scheduled noneLeft ?_ consistent.checks
          change task.destroying + 1 + task.onDestroyCalls = 1
          omega
      | false =>
          simp only [Bool.false_eq_true, if_false]
          refine consistent_idle rfl rfl scheduled noneLeft ?_ consistent.checks
          exact destroys

theorem Consistent.step (consistent : Consistent task) {action : TimerAction}
    {after : RepeatedTimerTask} (stepped : RepeatedTimerTask.step action task = some after) :
    Consistent after := by
  cases action with
  | start added =>
      cases stepped
      exact consistent.start added
  | stop =>
      cases stepped
      exact consistent.stop
  | reset added =>
      cases stepped
      exact consistent.reset added
  | runOnceNow =>
      cases stepped
      exact consistent.runOnceNow
  | destroy =>
      cases stepped
      exact consistent.destroy
  | expire timer =>
      simp only [RepeatedTimerTask.step] at stepped
      split_ifs at stepped with member
      cases stepped
      cases consistent.chain with
      | idle running scheduled firings =>
          rw [scheduled] at member
          cases member
      | waiting running stopped scheduled firings =>
          have erased : task.scheduled.erase timer = [] := by
            rw [scheduled] at member ⊢
            rw [List.mem_singleton.mp member]
            exact List.erase_cons_head ..
          exact consistent_fired running erased (congrArg (TimerFiring.spawned :: ·) firings)
            consistent.ended (consistent.destroys_running running) consistent.checks
      | fired running scheduled firing firings =>
          rw [scheduled] at member
          cases member
  | invoke =>
      simp only [RepeatedTimerTask.step] at stepped
      split_ifs at stepped with member
      cases stepped
      rcases consistent.chain.of_firing member with ⟨running, scheduled, firings⟩
      have invoked : TimerFiring.invoked :: task.firings.erase .spawned = [.invoked] := by
        rw [firings]
        exact congrArg (TimerFiring.invoked :: ·) (List.erase_cons_head ..)
      exact consistent_fired running scheduled invoked consistent.ended
        (consistent.destroys_running running) consistent.checks
  | finish added =>
      simp only [RepeatedTimerTask.step] at stepped
      split_ifs at stepped with member
      cases stepped
      exact consistent.onTimedout added member
  | onDestroy =>
      simp only [RepeatedTimerTask.step] at stepped
      split_ifs at stepped with waiting
      cases stepped
      have destroys := consistent.destroys
      have same : task.destroying - 1 + (task.onDestroyCalls + 1) =
          task.destroying + task.onDestroyCalls := by omega
      exact
        { chain := by
            cases consistent.chain with
            | idle running scheduled firings => exact .idle running scheduled firings
            | waiting running stopped scheduled firings =>
                exact .waiting running stopped scheduled firings
            | fired running scheduled firing firings =>
                exact .fired running scheduled firing firings
          started := consistent.started
          ended := consistent.ended
          destroys := same.trans destroys
          checks := consistent.checks }

/-- Whatever is called in whatever order, there is one chain while the task is
running and none otherwise, and `on_destroy` is called once and last. -/
theorem wellBehaved_run {task : RepeatedTimerTask} (reached : system.Reachable task) :
    WellBehaved task := by
  have consistent : Consistent task := by
    apply reached.invariant Consistent
    · intro start initial
      rw [initial]
      exact consistent_idle rfl rfl rfl rfl rfl rfl
    · intro action before after consistent _ stepped
      exact consistent.step stepped
  exact consistent.wellBehaved

/-- A stop and a destroy while `run` is executed: `on_destroy` waits for it. -/
theorem wellBehaved_destroyed :
    let last : RepeatedTimerTask :=
      { destroyed := true, timer := 1, nextTimer := 2, onDestroyCalls := 1 }
    system.Follows
        [.start true, .expire 1, .invoke, .stop, .start true, .destroy, .finish true, .onDestroy]
        {} last ∧
      WellBehaved last := by
  intro last
  have follows : system.Follows
      [.start true, .expire 1, .invoke, .stop, .start true, .destroy, .finish true, .onDestroy]
      {} last :=
    ⟨trivial, _, rfl, trivial, _, rfl, trivial, _, rfl, trivial, _, rfl, trivial, _, rfl,
      trivial, _, rfl, trivial, _, rfl, trivial, _, rfl, rfl⟩
  have reached : system.Reachable last :=
    TransitionSystem.Reachable.follows _ (.start rfl) follows
  exact ⟨follows, wellBehaved_run reached⟩

end RepeatedTimerTask
end QuorumKit
