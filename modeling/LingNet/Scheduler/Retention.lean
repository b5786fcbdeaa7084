import LingNet.Scheduler.Ledger

/-! What becomes of accepted tasks when allocations fail. No clock is assumed: a call that traps
stops the process, and there is no later state. -/
namespace LingNet.Scheduler
open Zig

/-- Every accepted task waits or is done, and its handler was called once at most. -/
def Retained (w : World) : Prop :=
  ∀ task ∈ w.submitted, (task ∈ w.scheduler.taskQueue ∨
    ∃ done ∈ w.scheduler.completedTasks, done.asSubmitted = task) ∧ w.invoked.count task.id ≤ 1

def Retains (host : Host) (w : World) (call : Call) : Prop :=
  ∀ w', step host w call = some w' → Retained w'

/-- A tick that takes a task out, and whose clock is not behind the task, has room in the log. -/
def FindsRoom (host : Host) (w : World) : Call → Prop
  | .submit .. => True
  | .tick delivers => ∀ task rest, host.queue.pop w.scheduler.taskQueue = some (task, rest) →
      task.createdAt ≤ host.clock w.reads → delivers = true

/-- The queue and the log have each accepted task once, and what was called is in the log. -/
structure Kept (w : World) : Prop where
  tasks : (w.scheduler.taskQueue ++ w.scheduler.completedTasks.map Task.asSubmitted).Perm
    w.submitted
  ids : (w.submitted.map (·.id)).Nodup
  id_lt : ∀ task ∈ w.submitted, task.id < w.scheduler.nextId
  asSubmitted : ∀ task ∈ w.submitted, task.asSubmitted = task
  invoked : ∀ id ∈ w.invoked, id ∈ w.scheduler.completedTasks.map (·.id)
  once : w.invoked.Nodup

/-! What a call does when its allocation fails. -/

section Refusals

variable {host : Host} {w : World} {task : Task} {rest : List Task}

/-- A task that is refused uses an id up. -/
theorem step_submit_refused {name : List UInt8} {priority : TaskPriority} {handler : Handler} :
    step host w (.submit false name priority handler) =
      if w.scheduler.nextId + 1 < usizeEnd then
        some { w with
          scheduler := { w.scheduler with nextId := w.scheduler.nextId + 1 }
          reads := w.reads + 1 }
      else none := by
  split_ifs with hid
  · exact congrArg (resume ∘ record _) (submit_run hid)
  · exact congrArg (resume ∘ record _) (submit_trap hid)

/-- The task is in no list behind the call, whether its handler was called or not. -/
theorem runTask_refused (hcreated : task.createdAt ≤ host.clock w.reads) :
    ∃ reads invoked, SkillScheduler.runTask host false task w =
      (.err .outOfMemory, { w with reads := reads, invoked := invoked }) := by
  have hsub : (sub (host.clock w.reads) task.createdAt : Outcome SchedulerError ℕ) =
      .ok (host.clock w.reads - task.createdAt) := if_pos hcreated
  unfold SkillScheduler.runTask
  rw [Proc.bind_of_ok (monotonicNs_run host w)]
  dsimp only
  rw [Proc.lift_bind_of_ok hsub]
  split_ifs with htimeout
  · exact ⟨_, _, rfl⟩
  · rw [Proc.bind_of_ok (Proc.modify_run _ _), Proc.bind_of_ok (monotonicNs_run host _)]
    exact ⟨_, _, rfl⟩

theorem step_tick_refused (hpop : host.queue.pop w.scheduler.taskQueue = some (task, rest))
    (hcreated : task.createdAt ≤ host.clock w.reads) :
    ∃ reads invoked, step host w (.tick false) = some { w with
      scheduler := { w.scheduler with taskQueue := rest }
      reads := reads
      invoked := invoked } := by
  obtain ⟨reads, invoked, hrun⟩ := runTask_refused
    (w := { w with scheduler := { w.scheduler with taskQueue := rest } }) hcreated
  rw [step_tick_of_pop hpop, hrun]
  exact ⟨reads, invoked, rfl⟩

theorem perm_of_pop (hpop : host.queue.pop w.scheduler.taskQueue = some (task, rest)) :
    w.scheduler.taskQueue.Perm (task :: rest) := by
  rcases queue_cases host w with hqueue | ⟨task', rest', hpop', hperm, -⟩
  · rw [hqueue, host.queue.pop_nil] at hpop
    cases hpop
  · rw [hpop] at hpop'
    cases hpop'
    exact hperm

theorem step_tick_late (hpop : host.queue.pop w.scheduler.taskQueue = some (task, rest))
    (hcreated : ¬ task.createdAt ≤ host.clock w.reads) (delivers : Bool) :
    step host w (.tick delivers) = none := by
  obtain ⟨w', hrun⟩ := runTask_trap
    (w := { w with scheduler := { w.scheduler with taskQueue := rest } }) hcreated delivers
  rw [step_tick_of_pop hpop, hrun]
  rfl

end Refusals

section Steps

variable {host : Host} {w w' : World} {task : Task} {rest : List Task}

theorem Kept.mem_submitted (h : Kept w) (htask : task ∈ w.scheduler.taskQueue) :
    task ∈ w.submitted := h.tasks.mem_iff.mp (List.mem_append_left _ htask)

theorem Kept.not_invoked (h : Kept w) (htask : task ∈ w.scheduler.taskQueue) :
    task.id ∉ w.invoked := by
  intro hid
  have hdisjoint := List.disjoint_of_nodup_append (nodup_of_tasks h.tasks h.ids)
  exact hdisjoint (List.mem_map_of_mem htask) (h.invoked task.id hid)

theorem Kept.retained (h : Kept w) : Retained w := by
  intro task htask
  constructor
  · rcases List.mem_append.mp (h.tasks.mem_iff.mpr htask) with hqueued | hdone
    · exact .inl hqueued
    · exact .inr (List.mem_map.mp hdone)
  · exact List.nodup_iff_count_le_one.mp h.once task.id

theorem Kept.afterSubmit (h : Kept w) (name : List UInt8) (priority : TaskPriority)
    (handler : Handler) : Kept (afterSubmit host w (newTask host w name priority handler)) where
  tasks := tasks_of_push h.tasks _
  ids := by
    have hnew : w.scheduler.nextId ∉ w.submitted.map (·.id) := by
      intro hmem
      obtain ⟨task, htask, hid⟩ := List.mem_map.mp hmem
      have hlt := h.id_lt task htask
      omega
    change ((w.submitted ++ [newTask host w name priority handler]).map (·.id)).Nodup
    rw [List.map_append]
    exact List.nodup_append_comm.mp (List.nodup_cons.mpr ⟨hnew, h.ids⟩)
  id_lt task htask := by
    rcases List.mem_append.mp htask with hold | hnew
    · exact Nat.lt_succ_of_lt (h.id_lt task hold)
    · rw [List.mem_singleton.mp hnew]
      exact Nat.lt_succ_self _
  asSubmitted task htask := by
    rcases List.mem_append.mp htask with hold | hnew
    · exact h.asSubmitted task hold
    · rw [List.mem_singleton.mp hnew]
      rfl
  invoked := h.invoked
  once := h.once

theorem Kept.afterTimeout (h : Kept w) (hperm : w.scheduler.taskQueue.Perm (task :: rest)) :
    Kept (afterTimeout host w task rest) := by
  have htask : task ∈ w.scheduler.taskQueue := hperm.mem_iff.mpr List.mem_cons_self
  exact {
    tasks := tasks_of_pop h.tasks hperm (h.asSubmitted task (h.mem_submitted htask))
    ids := h.ids
    id_lt := h.id_lt
    asSubmitted := h.asSubmitted
    invoked := by
      intro id hid
      change id ∈ (w.scheduler.completedTasks ++ _).map (·.id)
      rw [List.map_append]
      exact List.mem_append_left _ (h.invoked id hid)
    once := h.once }

theorem Kept.afterRun (h : Kept w) (hperm : w.scheduler.taskQueue.Perm (task :: rest)) :
    Kept (afterRun host w task rest) := by
  have htask : task ∈ w.scheduler.taskQueue := hperm.mem_iff.mpr List.mem_cons_self
  have hnever := h.not_invoked htask
  exact {
    tasks := tasks_of_pop h.tasks hperm (h.asSubmitted task (h.mem_submitted htask))
    ids := h.ids
    id_lt := h.id_lt
    asSubmitted := h.asSubmitted
    invoked := by
      intro id hid
      change id ∈ (w.scheduler.completedTasks ++ _).map (·.id)
      rw [List.map_append]
      rcases List.mem_append.mp hid with hold | hnew
      · exact List.mem_append_left _ (h.invoked id hold)
      · exact List.mem_append_right _ hnew
    once := List.nodup_append_comm.mp (List.nodup_cons.mpr ⟨hnever, h.once⟩) }

/-- An id that is used up. -/
theorem Kept.refused (h : Kept w) (reads : ℕ) : Kept { w with
    scheduler := { w.scheduler with nextId := w.scheduler.nextId + 1 }
    reads := reads } where
  tasks := h.tasks
  ids := h.ids
  id_lt task htask := Nat.lt_succ_of_lt (h.id_lt task htask)
  asSubmitted := h.asSubmitted
  invoked := h.invoked
  once := h.once

/-- A call that finds room keeps the tasks. -/
theorem kept_of_step (h : Kept w) {call : Call} (hroom : FindsRoom host w call)
    (hstep : step host w call = some w') : Kept w' := by
  cases call with
  | submit delivers name priority handler =>
    cases delivers with
    | true =>
      rw [step_submit] at hstep
      split_ifs at hstep
      cases hstep
      exact h.afterSubmit name priority handler
    | false =>
      rw [step_submit_refused] at hstep
      split_ifs at hstep
      cases hstep
      exact h.refused _
  | tick delivers =>
    rcases queue_cases host w with hqueue | ⟨task, rest, hpop, hperm, -⟩
    · rw [step_tick_nil hqueue] at hstep
      cases hstep
      exact h
    by_cases hcreated : task.createdAt ≤ host.clock w.reads
    · obtain rfl : delivers = true := hroom task rest hpop hcreated
      rw [step_tick_pop hpop, if_pos hcreated] at hstep
      split_ifs at hstep
      · cases hstep
        exact h.afterTimeout hperm
      · cases hstep
        exact h.afterRun hperm
    · rw [step_tick_late hpop hcreated] at hstep
      cases hstep

/-- A task that is taken out and not put into the log is nowhere. -/
theorem not_retained_of_pop (h : Kept w) (hperm : w.scheduler.taskQueue.Perm (task :: rest))
    (reads : ℕ) (invoked : List ℕ) : ¬ Retained { w with
      scheduler := { w.scheduler with taskQueue := rest }
      reads := reads
      invoked := invoked } := by
  intro hretained
  have htask : task ∈ w.scheduler.taskQueue := hperm.mem_iff.mpr List.mem_cons_self
  have hall : (task :: (rest ++ w.scheduler.completedTasks.map Task.asSubmitted)).Nodup := by
    have hsubmitted : w.submitted.Nodup := h.ids.of_map _
    exact ((hperm.symm.append_right _).trans h.tasks).nodup_iff.mpr hsubmitted
  have hgone := (List.nodup_cons.mp hall).1
  rcases (hretained task (h.mem_submitted htask)).1 with hqueued | hdone
  · exact hgone (List.mem_append_left _ hqueued)
  · exact hgone (List.mem_append_right _ (List.mem_map.mpr hdone))

theorem retains_iff (h : Kept w) (call : Call) : Retains host w call ↔ FindsRoom host w call := by
  constructor
  · intro hretains
    cases call with
    | submit delivers name priority handler => trivial
    | tick delivers =>
      intro task rest hpop hcreated
      by_contra hdelivers
      obtain rfl : delivers = false := by simpa using hdelivers
      have hperm := perm_of_pop hpop
      obtain ⟨reads, invoked, hstep⟩ := step_tick_refused hpop hcreated
      exact not_retained_of_pop h hperm reads invoked (hretains _ hstep)
  · intro hroom w' hstep
    exact (kept_of_step h hroom hstep).retained

end Steps

theorem kept_booted (maxConcurrent : ℕ) : Kept (booted maxConcurrent) where
  tasks := .nil
  ids := List.nodup_nil
  id_lt := nofun
  asSubmitted := nofun
  invoked := nofun
  once := List.nodup_nil

open Run

/-- Over every history of calls, accepted tasks are kept exactly if no tick that has taken one out
is refused room in the log. -/
theorem retains_iff_findsRoom (host : Host) (maxConcurrent : ℕ) (calls : List Call) :
    AllSteps (step host) (Retains host) (booted maxConcurrent) calls ↔
      AllSteps (step host) (FindsRoom host) (booted maxConcurrent) calls := by
  apply allSteps_congr (I := Kept) _ _ (kept_booted maxConcurrent)
  · intro w call h
    exact retains_iff h call
  · intro w call w' h hroom hstep
    exact kept_of_step h hroom hstep

/-- The handler has run, and the task is in neither list. -/
theorem task_lost : ¬ AllSteps (step plainHost) (Retains plainHost) (booted 4)
    [.submit true [97] .low 1, .tick false] := by
  intro hall
  have hretained := (hall.2 _ rfl).1 _ rfl
  rcases (hretained _ List.mem_cons_self).1 with hqueued | ⟨done, hdone, -⟩
  · cases hqueued
  · cases hdone

end LingNet.Scheduler
