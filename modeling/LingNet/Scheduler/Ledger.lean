import Mathlib.Order.Monotone.Basic
import LingNet.Scheduler.Tick

/-! The ledger of the scheduler: over every history of calls, the tasks that wait and the tasks
that are done are those that were submitted. -/
namespace LingNet.Scheduler
open Zig

/-- The task as it was submitted. -/
def Task.asSubmitted (task : Task) : Task :=
  { task with state := .pending, startedAt := 0, completedAt := 0, errorCode := 0 }

/-- The task is completed, with its handler called once and its times in order, or it has timed
out, with its handler never called and after more than its time. -/
def Task.Finished (invoked : List ℕ) (task : Task) : Prop :=
  (task.state = .completed ∧ invoked.count task.id = 1 ∧ task.createdAt ≤ task.startedAt ∧
      task.startedAt ≤ task.completedAt) ∨
    (task.state = .timeout ∧ task.id ∉ invoked ∧
      task.createdAt + task.timeoutMs * 1000000 < task.startedAt)

/-- The queue and the log have each submitted task once, under the ids from one on. -/
structure Ledger (w : World) : Prop where
  ids : w.submitted.map (·.id) = List.range' 1 (w.scheduler.nextId - 1)
  tasks : (w.scheduler.taskQueue ++ w.scheduler.completedTasks.map Task.asSubmitted).Perm
    w.submitted
  queued : ∀ task ∈ w.scheduler.taskQueue, task.state = .pending
  finished : ∀ task ∈ w.scheduler.completedTasks, task.Finished w.invoked

/-- What a submission asks for: a name, a priority and a handler. -/
def Call.asked : Call → List (List UInt8 × TaskPriority × Handler)
  | .submit _ name priority handler => [(name, priority, handler)]
  | .tick _ => []

def Task.asked (task : Task) : List UInt8 × TaskPriority × Handler :=
  (task.name, task.priority, task.handler)

/-- A tick finishes no task that a queued one goes before. -/
def Prioritised (host : Host) (w : World) (call : Call) : Prop :=
  ∀ delivers w' task, call = .tick delivers → step host w call = some w' →
    w'.scheduler.completedTasks = w.scheduler.completedTasks ++ [task] →
    ∀ queued ∈ w.scheduler.taskQueue, taskCompare queued task ≠ .lt

/-! What a call does when its allocation succeeds. -/

section Outcomes

variable {host : Host} {w w' : World}

/-- The process behind a submission. -/
def afterSubmit (host : Host) (w : World) (task : Task) : World where
  scheduler := { w.scheduler with
    taskQueue := host.queue.push w.scheduler.taskQueue task
    nextId := w.scheduler.nextId + 1 }
  reads := w.reads + 1
  submitted := w.submitted ++ [task]
  invoked := w.invoked

/-- A submission comes to its push. -/
theorem submit_run {delivers : Bool} {name : List UInt8} {priority : TaskPriority}
    {handler : Handler} (hid : w.scheduler.nextId + 1 < usizeEnd) :
    SkillScheduler.submit host delivers name priority handler w =
      SkillScheduler.push host delivers (newTask host w name priority handler) { w with
        scheduler := { w.scheduler with nextId := w.scheduler.nextId + 1 }
        reads := w.reads + 1 } := by
  have hadd : (add w.scheduler.nextId 1 : Outcome SchedulerError ℕ) =
      .ok (w.scheduler.nextId + 1) := add_eq_ok.mpr ⟨hid, rfl⟩
  unfold SkillScheduler.submit
  rw [Proc.bind_of_ok (Proc.get_run w), Proc.lift_bind_of_ok hadd]
  rfl

theorem submit_trap {delivers : Bool} {name : List UInt8} {priority : TaskPriority}
    {handler : Handler} (hid : ¬ w.scheduler.nextId + 1 < usizeEnd) :
    SkillScheduler.submit host delivers name priority handler w = (.trap .integerOverflow, w) := by
  have hadd : (add w.scheduler.nextId 1 : Outcome SchedulerError ℕ) = .trap .integerOverflow :=
    if_neg hid
  unfold SkillScheduler.submit
  rw [Proc.bind_of_ok (Proc.get_run w), hadd]
  rfl

theorem step_submit {name : List UInt8} {priority : TaskPriority} {handler : Handler} :
    step host w (.submit true name priority handler) =
      if w.scheduler.nextId + 1 < usizeEnd then
        some (afterSubmit host w (newTask host w name priority handler))
      else none := by
  split_ifs with hid
  · exact congrArg (resume ∘ record _) (submit_run hid)
  · exact congrArg (resume ∘ record _) (submit_trap hid)

/-- The task as a tick that refuses it leaves it. -/
def Task.timedOut (task : Task) (startedAt : ℕ) : Task :=
  { task with state := .timeout, startedAt := startedAt, errorCode := -1 }

/-- The task as a tick that runs it leaves it. -/
def Task.done (task : Task) (startedAt completedAt : ℕ) : Task :=
  { task with state := .completed, startedAt := startedAt, completedAt := completedAt }

/-- The process behind a tick that timed out. -/
def afterTimeout (host : Host) (w : World) (task : Task) (rest : List Task) : World :=
  { w with
    scheduler := { w.scheduler with
      taskQueue := rest
      completedTasks := w.scheduler.completedTasks ++ [task.timedOut (host.clock w.reads)] }
    reads := w.reads + 1 }

/-- The process behind a tick that has run its task. -/
def afterRun (host : Host) (w : World) (task : Task) (rest : List Task) : World :=
  { w with
    scheduler := { w.scheduler with
      taskQueue := rest
      completedTasks := w.scheduler.completedTasks ++
        [task.done (host.clock w.reads) (host.clock (w.reads + 1))] }
    reads := w.reads + 2
    invoked := w.invoked ++ [task.id] }

theorem monotonicNs_run (host : Host) (w : World) : SkillScheduler.monotonicNs host w =
    (.ok (host.clock w.reads), { w with reads := w.reads + 1 }) := rfl

theorem append_run (task : Task) (w : World) : SkillScheduler.append true task w =
    (.ok (), { w with scheduler := { w.scheduler with
      completedTasks := w.scheduler.completedTasks ++ [task] } }) := rfl

section RunTask

variable {task : Task}

theorem runTask_trap (hcreated : ¬ task.createdAt ≤ host.clock w.reads) (delivers : Bool) :
    ∃ w', SkillScheduler.runTask host delivers task w = (.trap .integerOverflow, w') := by
  have hsub : (sub (host.clock w.reads) task.createdAt : Outcome SchedulerError ℕ) =
      .trap .integerOverflow := if_neg hcreated
  unfold SkillScheduler.runTask
  rw [Proc.bind_of_ok (monotonicNs_run host w)]
  dsimp only
  rw [hsub]
  exact ⟨_, rfl⟩

theorem runTask_timeout (hcreated : task.createdAt ≤ host.clock w.reads)
    (htimeout : task.timeoutMs < (host.clock w.reads - task.createdAt) / 1000000) :
    SkillScheduler.runTask host true task w =
      (.ok true, afterTimeout host w task w.scheduler.taskQueue) := by
  have hsub : (sub (host.clock w.reads) task.createdAt : Outcome SchedulerError ℕ) =
      .ok (host.clock w.reads - task.createdAt) := if_pos hcreated
  unfold SkillScheduler.runTask
  rw [Proc.bind_of_ok (monotonicNs_run host w)]
  dsimp only
  rw [Proc.lift_bind_of_ok hsub, if_pos htimeout]
  rfl

/-- The handler is called, and the process goes on if the clock does not go back meanwhile. -/
theorem runTask_run (hcreated : task.createdAt ≤ host.clock w.reads)
    (htimeout : ¬ task.timeoutMs < (host.clock w.reads - task.createdAt) / 1000000) :
    ∃ r, SkillScheduler.runTask host true task w =
        (r, afterRun host w task w.scheduler.taskQueue) ∧
      r = if host.clock w.reads ≤ host.clock (w.reads + 1) then .ok true
        else .trap .integerOverflow := by
  have hsub : (sub (host.clock w.reads) task.createdAt : Outcome SchedulerError ℕ) =
      .ok (host.clock w.reads - task.createdAt) := if_pos hcreated
  unfold SkillScheduler.runTask
  rw [Proc.bind_of_ok (monotonicNs_run host w)]
  dsimp only
  rw [Proc.lift_bind_of_ok hsub, if_neg htimeout, Proc.bind_of_ok (Proc.modify_run _ _),
    Proc.bind_of_ok (monotonicNs_run host _), Proc.bind_of_ok (append_run _ _)]
  unfold sub
  split_ifs with hclock
  · exact ⟨_, rfl, rfl⟩
  · exact ⟨_, rfl, rfl⟩

end RunTask

theorem step_tick_nil (hqueue : w.scheduler.taskQueue = []) (delivers : Bool) :
    step host w (.tick delivers) = some w := by
  have hrun : SkillScheduler.tick host delivers w = (.ok false, w) := by
    unfold SkillScheduler.tick
    rw [Proc.bind_of_ok (Proc.get_run w), hqueue]
    rfl
  exact congrArg resume hrun

/-- A tick that takes a task out goes on with it. -/
theorem step_tick_of_pop {task : Task} {rest : List Task}
    (hpop : host.queue.pop w.scheduler.taskQueue = some (task, rest)) (delivers : Bool) :
    step host w (.tick delivers) = resume (SkillScheduler.runTask host delivers task
      { w with scheduler := { w.scheduler with taskQueue := rest } }) := by
  have hne : w.scheduler.taskQueue.length ≠ 0 := by
    intro hlen
    rw [List.length_eq_zero_iff.mp hlen, host.queue.pop_nil] at hpop
    cases hpop
  have htick : SkillScheduler.tick host delivers w = SkillScheduler.runTask host delivers task
      { w with scheduler := { w.scheduler with taskQueue := rest } } := by
    unfold SkillScheduler.tick
    rw [Proc.bind_of_ok (Proc.get_run w), if_neg hne, hpop]
    exact Proc.bind_of_ok (Proc.modify_run _ _) _
  exact congrArg resume htick

/-- A tick with a task that the queue gives out. -/
theorem step_tick_pop {task : Task} {rest : List Task}
    (hpop : host.queue.pop w.scheduler.taskQueue = some (task, rest)) :
    step host w (.tick true) =
      if task.createdAt ≤ host.clock w.reads then
        if task.timeoutMs < (host.clock w.reads - task.createdAt) / 1000000 then
          some (afterTimeout host w task rest)
        else if host.clock w.reads ≤ host.clock (w.reads + 1) then
          some (afterRun host w task rest)
        else none
      else none := by
  let popped : World := { w with scheduler := { w.scheduler with taskQueue := rest } }
  have hstep : step host w (.tick true) =
      resume (SkillScheduler.runTask host true task popped) := step_tick_of_pop hpop true
  rw [hstep]
  split_ifs with hcreated htimeout hclock
  · rw [runTask_timeout (w := popped) hcreated htimeout]
    rfl
  · obtain ⟨r, hrun, rfl⟩ := runTask_run (w := popped) hcreated htimeout
    rw [hrun, if_pos hclock]
    rfl
  · obtain ⟨r, hrun, rfl⟩ := runTask_run (w := popped) hcreated htimeout
    rw [hrun, if_neg hclock]
    rfl
  · obtain ⟨w', hrun⟩ := runTask_trap (w := popped) hcreated true
    rw [hrun]
    rfl

/-- A tick finds an empty queue, or takes a task out of it. -/
theorem queue_cases (host : Host) (w : World) : w.scheduler.taskQueue = [] ∨
    ∃ task rest, host.queue.pop w.scheduler.taskQueue = some (task, rest) ∧
      w.scheduler.taskQueue.Perm (task :: rest) ∧
      ∀ queued ∈ w.scheduler.taskQueue, taskCompare queued task ≠ .lt := by
  by_cases hqueue : w.scheduler.taskQueue = []
  · exact .inl hqueue
  · exact .inr (host.queue.pop_min _ hqueue)

end Outcomes

/-- The ledger, and what keeps it. -/
structure Inv (host : Host) (w : World) : Prop extends Ledger w where
  nextId_pos : 1 ≤ w.scheduler.nextId
  created : ∀ task ∈ w.scheduler.taskQueue, task.createdAt ≤ host.clock w.reads
  asSubmitted : ∀ task ∈ w.submitted, task.asSubmitted = task
  invoked : ∀ id ∈ w.invoked, id ∈ w.scheduler.completedTasks.map (·.id)

section Steps

variable {host : Host} {w : World} {task : Task} {rest : List Task}

theorem Inv.asSubmitted_of_queued (h : Inv host w) (htask : task ∈ w.scheduler.taskQueue) :
    task.asSubmitted = task :=
  h.asSubmitted task (h.tasks.mem_iff.mp (List.mem_append_left _ htask))

/-- Where no id is submitted twice, none is in the queue and the log twice. -/
theorem nodup_of_tasks (htasks : (w.scheduler.taskQueue ++
      w.scheduler.completedTasks.map Task.asSubmitted).Perm w.submitted)
    (hids : (w.submitted.map (·.id)).Nodup) :
    (w.scheduler.taskQueue.map (·.id) ++ w.scheduler.completedTasks.map (·.id)).Nodup := by
  have hperm := htasks.map (·.id)
  have hsame : (w.scheduler.completedTasks.map Task.asSubmitted).map (·.id) =
      w.scheduler.completedTasks.map (·.id) := List.map_map
  rw [List.map_append, hsame] at hperm
  exact hperm.nodup_iff.mpr hids

/-- No id is taken twice. -/
theorem Ledger.nodup (h : Ledger w) :
    (w.scheduler.taskQueue.map (·.id) ++ w.scheduler.completedTasks.map (·.id)).Nodup := by
  apply nodup_of_tasks h.tasks
  rw [h.ids]
  exact List.nodup_range'

theorem Ledger.id_not_done (h : Ledger w) (htask : task ∈ w.scheduler.taskQueue) :
    task.id ∉ w.scheduler.completedTasks.map (·.id) := by
  have hdisjoint := List.disjoint_of_nodup_append h.nodup
  exact hdisjoint (List.mem_map_of_mem htask)

theorem Inv.not_invoked (h : Inv host w) (htask : task ∈ w.scheduler.taskQueue) :
    task.id ∉ w.invoked := fun hid => h.id_not_done htask (h.invoked task.id hid)

/-- A task that moves from the queue to the log is still there once. -/
theorem tasks_of_pop (htasks : (w.scheduler.taskQueue ++
      w.scheduler.completedTasks.map Task.asSubmitted).Perm w.submitted)
    (hperm : w.scheduler.taskQueue.Perm (task :: rest)) {done : Task}
    (hdone : done.asSubmitted = task) :
    (rest ++ (w.scheduler.completedTasks ++ [done]).map Task.asSubmitted).Perm w.submitted := by
  have hmove : (rest ++ (w.scheduler.completedTasks ++ [done]).map Task.asSubmitted).Perm
      (task :: rest ++ w.scheduler.completedTasks.map Task.asSubmitted) := by
    rw [List.map_append, List.map_singleton, hdone, ← List.append_assoc]
    exact List.perm_append_singleton _ _
  exact hmove.trans ((hperm.symm.append_right _).trans htasks)

/-- A task that is pushed is there once more. -/
theorem tasks_of_push (htasks : (w.scheduler.taskQueue ++
      w.scheduler.completedTasks.map Task.asSubmitted).Perm w.submitted) (task : Task) :
    (host.queue.push w.scheduler.taskQueue task ++
      w.scheduler.completedTasks.map Task.asSubmitted).Perm (w.submitted ++ [task]) := by
  have hpush := (host.queue.push_perm w.scheduler.taskQueue task).append_right
    (w.scheduler.completedTasks.map Task.asSubmitted)
  have hlast := (List.perm_append_singleton task w.submitted).symm
  exact hpush.trans ((htasks.cons _).trans hlast)

theorem Inv.afterSubmit (hclock : Monotone host.clock) (h : Inv host w) (name : List UInt8)
    (priority : TaskPriority) (handler : Handler) :
    Inv host (afterSubmit host w (newTask host w name priority handler)) where
  ids := by
    have hpos := h.nextId_pos
    have hrange : List.range' 1 (w.scheduler.nextId - 1 + 1) =
        List.range' 1 (w.scheduler.nextId - 1) ++ [1 + (w.scheduler.nextId - 1)] :=
      List.range'_1_concat
    have hlast : 1 + (w.scheduler.nextId - 1) = w.scheduler.nextId := by omega
    have hcount : w.scheduler.nextId + 1 - 1 = w.scheduler.nextId - 1 + 1 := by omega
    change (w.submitted ++ [newTask host w name priority handler]).map (·.id) =
      List.range' 1 (w.scheduler.nextId + 1 - 1)
    rw [List.map_append, h.ids, hcount, hrange, hlast]
    rfl
  tasks := tasks_of_push h.tasks _
  queued queued hqueued := by
    rcases host.queue.mem_push.mp hqueued with rfl | hold
    · rfl
    · exact h.queued queued hold
  finished := h.finished
  nextId_pos := Nat.le_succ_of_le h.nextId_pos
  created queued hqueued := by
    have hle := hclock (Nat.le_succ w.reads)
    rcases host.queue.mem_push.mp hqueued with rfl | hold
    · exact hle
    · exact (h.created queued hold).trans hle
  asSubmitted submitted hsubmitted := by
    rcases List.mem_append.mp hsubmitted with hold | hnew
    · exact h.asSubmitted submitted hold
    · rw [List.mem_singleton.mp hnew]
      rfl
  invoked := h.invoked

/-- A task that timed out. -/
theorem Inv.afterTimeout (hclock : Monotone host.clock) (h : Inv host w)
    (hperm : w.scheduler.taskQueue.Perm (task :: rest))
    (hcreated : task.createdAt ≤ host.clock w.reads)
    (htimeout : task.timeoutMs < (host.clock w.reads - task.createdAt) / 1000000) :
    Inv host (afterTimeout host w task rest) := by
  have hrest : ∀ queued ∈ rest, queued ∈ w.scheduler.taskQueue := fun queued hqueued =>
    hperm.mem_iff.mpr (List.mem_cons_of_mem _ hqueued)
  have htask : task ∈ w.scheduler.taskQueue := hperm.mem_iff.mpr List.mem_cons_self
  have hnever := h.not_invoked htask
  have hlate : task.createdAt + task.timeoutMs * 1000000 < host.clock w.reads := by omega
  exact {
    ids := h.ids
    tasks := tasks_of_pop h.tasks hperm (h.asSubmitted_of_queued htask)
    queued := fun queued hqueued => h.queued queued (hrest queued hqueued)
    finished := by
      intro done hdone
      rcases List.mem_append.mp hdone with hold | hnew
      · exact h.finished done hold
      · rw [List.mem_singleton.mp hnew]
        exact .inr ⟨rfl, hnever, hlate⟩
    nextId_pos := h.nextId_pos
    created := fun queued hqueued =>
      (h.created queued (hrest queued hqueued)).trans (hclock (Nat.le_succ w.reads))
    asSubmitted := h.asSubmitted
    invoked := by
      intro id hid
      change id ∈ (w.scheduler.completedTasks ++ _).map (·.id)
      rw [List.map_append]
      exact List.mem_append_left _ (h.invoked id hid) }

/-- Another task that is run does not touch a finished one. -/
theorem Task.Finished.append {invoked : List ℕ} {done : Task} (h : done.Finished invoked) {id : ℕ}
    (hid : done.id ≠ id) : done.Finished (invoked ++ [id]) := by
  have hcount : (invoked ++ [id]).count done.id = invoked.count done.id := by
    rw [List.count_append, List.count_singleton]
    simp [hid.symm]
  rcases h with ⟨hstate, hone, htimes⟩ | ⟨hstate, hnever, htime⟩
  · exact .inl ⟨hstate, hcount.trans hone, htimes⟩
  · refine .inr ⟨hstate, fun hmem => ?_, htime⟩
    rcases List.mem_append.mp hmem with hmem | hmem
    · exact hnever hmem
    · exact hid (List.mem_singleton.mp hmem)

/-- A task that was run. -/
theorem Inv.afterRun (hclock : Monotone host.clock) (h : Inv host w)
    (hperm : w.scheduler.taskQueue.Perm (task :: rest))
    (hcreated : task.createdAt ≤ host.clock w.reads) :
    Inv host (afterRun host w task rest) := by
  have hrest : ∀ queued ∈ rest, queued ∈ w.scheduler.taskQueue := fun queued hqueued =>
    hperm.mem_iff.mpr (List.mem_cons_of_mem _ hqueued)
  have htask : task ∈ w.scheduler.taskQueue := hperm.mem_iff.mpr List.mem_cons_self
  have hcount : (w.invoked ++ [task.id]).count task.id = 1 := by
    rw [List.count_append, List.count_singleton, List.count_eq_zero.mpr (h.not_invoked htask)]
    simp
  exact {
    ids := h.ids
    tasks := tasks_of_pop h.tasks hperm (h.asSubmitted_of_queued htask)
    queued := fun queued hqueued => h.queued queued (hrest queued hqueued)
    finished := by
      intro done hdone
      rcases List.mem_append.mp hdone with hold | hnew
      · have hid : done.id ≠ task.id := fun heq =>
          h.id_not_done htask (heq ▸ List.mem_map_of_mem hold)
        exact (h.finished done hold).append hid
      · rw [List.mem_singleton.mp hnew]
        exact .inl ⟨rfl, hcount, hcreated, hclock (Nat.le_succ w.reads)⟩
    nextId_pos := h.nextId_pos
    created := fun queued hqueued => by
      have hle := hclock (Nat.le_add_right w.reads 2)
      exact (h.created queued (hrest queued hqueued)).trans hle
    asSubmitted := h.asSubmitted
    invoked := by
      intro id hid
      change id ∈ (w.scheduler.completedTasks ++ _).map (·.id)
      rw [List.map_append]
      rcases List.mem_append.mp hid with hold | hnew
      · exact List.mem_append_left _ (h.invoked id hold)
      · exact List.mem_append_right _ hnew }

/-- A call keeps the ledger. -/
theorem inv_of_step (hclock : Monotone host.clock) (h : Inv host w) {call : Call}
    (hdelivers : call.Delivers) {w' : World} (hstep : step host w call = some w') :
    Inv host w' := by
  cases call with
  | submit delivers name priority handler =>
    obtain rfl : delivers = true := hdelivers
    rw [step_submit] at hstep
    split_ifs at hstep
    cases hstep
    exact h.afterSubmit hclock name priority handler
  | tick delivers =>
    obtain rfl : delivers = true := hdelivers
    rcases queue_cases host w with hqueue | ⟨task, rest, hpop, hperm, -⟩
    · rw [step_tick_nil hqueue] at hstep
      cases hstep
      exact h
    · rw [step_tick_pop hpop] at hstep
      split_ifs at hstep with hcreated htimeout hlater
      · cases hstep
        exact h.afterTimeout hclock hperm hcreated htimeout
      · cases hstep
        exact h.afterRun hclock hperm hcreated

/-- A submission succeeds, so that the task it asks for is recorded. A tick records nothing. -/
theorem asked_of_step {call : Call} (hdelivers : call.Delivers) {w' : World}
    (hstep : step host w call = some w') :
    w'.submitted.map Task.asked = w.submitted.map Task.asked ++ call.asked := by
  cases call with
  | submit delivers name priority handler =>
    obtain rfl : delivers = true := hdelivers
    rw [step_submit] at hstep
    split_ifs at hstep
    cases hstep
    exact List.map_append
  | tick delivers =>
    obtain rfl : delivers = true := hdelivers
    have hsame : w'.submitted = w.submitted := by
      rcases queue_cases host w with hqueue | ⟨task, rest, hpop, -, -⟩
      · rw [step_tick_nil hqueue] at hstep
        cases hstep
        rfl
      · rw [step_tick_pop hpop] at hstep
        split_ifs at hstep
        · cases hstep
          rfl
        · cases hstep
          rfl
    rw [hsame]
    exact (List.append_nil _).symm

/-- No call stops the process before the ids run out. -/
theorem step_isSome (hclock : Monotone host.clock) (h : Inv host w) {call : Call}
    (hdelivers : call.Delivers) (hid : w.scheduler.nextId + 1 < usizeEnd) :
    ∃ w', step host w call = some w' ∧ w'.scheduler.nextId ≤ w.scheduler.nextId + 1 := by
  cases call with
  | submit delivers name priority handler =>
    obtain rfl : delivers = true := hdelivers
    rw [step_submit, if_pos hid]
    exact ⟨_, rfl, Nat.le_refl _⟩
  | tick delivers =>
    obtain rfl : delivers = true := hdelivers
    rcases queue_cases host w with hqueue | ⟨task, rest, hpop, hperm, -⟩
    · exact ⟨w, step_tick_nil hqueue true, Nat.le_succ _⟩
    · have hcreated := h.created task (hperm.mem_iff.mpr List.mem_cons_self)
      have hlater := hclock (Nat.le_succ w.reads)
      rw [step_tick_pop hpop, if_pos hcreated, if_pos hlater]
      split_ifs with htimeout
      · exact ⟨_, rfl, Nat.le_succ _⟩
      · exact ⟨_, rfl, Nat.le_succ _⟩

theorem prioritised_of_delivers {call : Call} (hdelivers : call.Delivers) (w : World) :
    Prioritised host w call := by
  intro delivers w' done hcall hstep hdone
  subst hcall
  obtain rfl : delivers = true := hdelivers
  rcases queue_cases host w with hqueue | ⟨task, rest, hpop, -, hmin⟩
  · rw [hqueue]
    exact fun _ hnil => absurd hnil List.not_mem_nil
  · have hpriority : done.priority = task.priority := by
      rw [step_tick_pop hpop] at hstep
      split_ifs at hstep with hcreated htimeout hlater
      · cases hstep
        rw [← List.cons.inj (List.append_cancel_left hdone) |>.1]
        rfl
      · cases hstep
        rw [← List.cons.inj (List.append_cancel_left hdone) |>.1]
        rfl
    intro queued hqueued hlt
    apply hmin queued hqueued
    unfold taskCompare at hlt ⊢
    rwa [← hpriority]

end Steps

theorem inv_booted (host : Host) (maxConcurrent : ℕ) : Inv host (booted maxConcurrent) where
  ids := rfl
  tasks := .nil
  queued := nofun
  finished := nofun
  nextId_pos := Nat.le_refl 1
  created := nofun
  asSubmitted := nofun
  invoked := nofun

/-- A run of fewer calls than there are ids comes to its end. -/
theorem run_isSome {host : Host} (hclock : Monotone host.clock) {calls : List Call}
    (hdelivers : ∀ call ∈ calls, call.Delivers) {w : World} (h : Inv host w)
    (hids : w.scheduler.nextId + calls.length < usizeEnd) :
    (Run.run (step host) w calls).isSome := by
  induction calls generalizing w with
  | nil => rfl
  | cons call calls ih =>
    obtain ⟨hcall, hcalls⟩ := List.forall_mem_cons.mp hdelivers
    rw [List.length_cons] at hids
    obtain ⟨w', hstep, hnext⟩ := step_isSome hclock h hcall (by omega)
    rw [Run.run_cons_of_step hstep]
    exact ih hcalls (inv_of_step hclock h hcall hstep) (by omega)

/-- The tasks that were submitted are those that the calls have asked for. -/
theorem asked_of_run {host : Host} {calls : List Call}
    (hdelivers : ∀ call ∈ calls, call.Delivers) {w w' : World}
    (hrun : Run.run (step host) w calls = some w') :
    w'.submitted.map Task.asked = w.submitted.map Task.asked ++ calls.flatMap Call.asked := by
  induction calls generalizing w with
  | nil =>
    cases hrun
    exact (List.append_nil _).symm
  | cons call calls ih =>
    obtain ⟨hcall, hcalls⟩ := List.forall_mem_cons.mp hdelivers
    obtain ⟨next, hstep, hrest⟩ := Run.run_cons_eq_some.mp hrun
    rw [ih hcalls hrest, asked_of_step hcall hstep, List.flatMap_cons, List.append_assoc]

/-- Over every history of calls with a clock that does not go back and allocations that succeed,
every submission succeeds and the ledger is right at the end, each tick has finished a task that no
other went before, and the process is stopped by nothing but the end of the ids. -/
theorem ledger_of_run (host : Host) (hclock : Monotone host.clock) (maxConcurrent : ℕ)
    (calls : List Call) (hdelivers : ∀ call ∈ calls, call.Delivers) :
    (∀ w, Run.run (step host) (booted maxConcurrent) calls = some w →
        w.submitted.map Task.asked = calls.flatMap Call.asked ∧ Ledger w) ∧
      Run.AllSteps (step host) (Prioritised host) (booted maxConcurrent) calls ∧
      (1 + calls.length < usizeEnd →
        (Run.run (step host) (booted maxConcurrent) calls).isSome) := by
  refine ⟨fun w hrun => ?_, ?_, fun hids => ?_⟩
  · have hall : Run.AllSteps (step host) (fun _ call => call.Delivers) (booted maxConcurrent)
        calls := Run.allSteps_of_forall fun call hcall _ => hdelivers call hcall
    have hinv : Inv host w := Run.invariant_of_step
      (fun _ _ _ h hcall hstep => inv_of_step hclock h hcall hstep)
      (inv_booted host maxConcurrent) hall hrun
    exact ⟨asked_of_run hdelivers hrun, hinv.toLedger⟩
  · apply Run.allSteps_of_forall
    intro call hcall w
    exact prioritised_of_delivers (hdelivers call hcall) w
  · exact run_isSome hclock hdelivers (inv_booted host maxConcurrent) hids

/-- A host that searches its queue, and whose clock advances by ten milliseconds a reading. -/
def plainHost : Host where
  queue := .ofKey fun task : Task => task.priority.toNat
  clock n := n * 10000000

/-- A task of low priority is submitted before one that is critical. -/
theorem ledger_of_two : ∃ w, Run.run (step plainHost) (booted 4)
    [.submit true [97] .low 1, .submit true [98] .critical 2, .tick true] = some w ∧
      w.submitted.map Task.asked = [([97], .low, 1), ([98], .critical, 2)] ∧ Ledger w := by
  have hclock : Monotone plainHost.clock := fun a b hle => Nat.mul_le_mul_right 10000000 hle
  have hall := ledger_of_run plainHost hclock 4
    [.submit true [97] .low 1, .submit true [98] .critical 2, .tick true] (by
      intro call hcall
      rcases List.mem_cons.mp hcall with rfl | hcall
      · rfl
      rcases List.mem_cons.mp hcall with rfl | hcall
      · rfl
      rw [List.mem_singleton.mp hcall]
      rfl)
  obtain ⟨w, hrun⟩ := Option.isSome_iff_exists.mp (hall.2.2 (by decide))
  exact ⟨w, hrun, hall.1 w hrun⟩

end LingNet.Scheduler
