import LingNet.Lib.PriorityQueue
import LingNet.Lib.Run
import LingNet.Zig.Proc

/-! The scheduler: tasks that wait in a priority queue, and the log of those that are done. -/
namespace LingNet.Scheduler
open Zig

inductive TaskPriority where
  | critical
  | high
  | normal
  | low
  | background
  deriving DecidableEq, Repr

/-- `@intFromEnum` -/
def TaskPriority.toNat : TaskPriority → ℕ
  | .critical => 0
  | .high => 1
  | .normal => 2
  | .low => 3
  | .background => 4

inductive TaskState where
  | pending
  | running
  | completed
  | failed
  | timeout
  | cancelled
  deriving DecidableEq, Repr

/-- The code of a task, by its address. -/
abbrev Handler := ℕ

/-- The times are readings of the monotonic clock, in nanoseconds. -/
structure Task where
  id : ℕ
  name : List UInt8
  priority : TaskPriority
  state : TaskState
  timeoutMs : ℕ
  retryCount : ℕ
  maxRetries : ℕ
  createdAt : ℕ
  startedAt : ℕ
  completedAt : ℕ
  errorCode : ℤ
  handler : Handler
  deriving DecidableEq

def taskCompare (a b : Task) : Ordering := compare a.priority.toNat b.priority.toNat

structure SkillScheduler where
  taskQueue : List Task
  completedTasks : List Task
  nextId : ℕ
  maxConcurrent : ℕ
  defaultTimeoutMs : ℕ

def SkillScheduler.init (maxConcurrent : ℕ) : SkillScheduler where
  taskQueue := []
  completedTasks := []
  nextId := 1
  maxConcurrent := maxConcurrent
  defaultTimeoutMs := 30000

inductive SchedulerError where
  | outOfMemory
  deriving DecidableEq, Repr

/-- The process around a scheduler. `reads` counts the readings of the clock. What comes behind it
records the past, and no call depends on it: the tasks that were asked for by the submissions that
succeeded, and the ids of the tasks whose handler was called. -/
structure World where
  scheduler : SkillScheduler
  reads : ℕ := 0
  submitted : List Task := []
  invoked : List ℕ := []

/-- What the calls find outside: how the queue is kept, and what the clock says. -/
structure Host where
  queue : PriorityQueue Task taskCompare
  clock : ℕ → ℕ

namespace SkillScheduler

variable (host : Host)

def monotonicNs : Proc World SchedulerError ℕ := fun w =>
  (.ok (host.clock w.reads), { w with reads := w.reads + 1 })

/-- `try self.task_queue.push(self.allocator, task)` -/
def push (delivers : Bool) (task : Task) : Proc World SchedulerError Unit := fun w =>
  if delivers then
    (.ok (), { w with scheduler := { w.scheduler with
      taskQueue := host.queue.push w.scheduler.taskQueue task } })
  else (.err .outOfMemory, w)

def submit (delivers : Bool) (name : List UInt8) (priority : TaskPriority) (handler : Handler) :
    Proc World SchedulerError Unit := do
  let w ← Proc.get
  let id := w.scheduler.nextId
  let nextId ← Proc.lift (add id 1)
  Proc.modify fun w => { w with scheduler := { w.scheduler with nextId := nextId } }
  let now ← monotonicNs host
  push host delivers {
    id := id
    name := name
    priority := priority
    state := .pending
    timeoutMs := w.scheduler.defaultTimeoutMs
    retryCount := 0
    maxRetries := 3
    createdAt := now
    startedAt := 0
    completedAt := 0
    errorCode := 0
    handler := handler }

/-- `try self.completed_tasks.append(self.allocator, task)` -/
def append (delivers : Bool) (task : Task) : Proc World SchedulerError Unit := fun w =>
  if delivers then
    (.ok (), { w with scheduler := { w.scheduler with
      completedTasks := w.scheduler.completedTasks ++ [task] } })
  else (.err .outOfMemory, w)

/-- `tick` from the pop on. The handler is no code of the scheduler. -/
def runTask (delivers : Bool) (task : Task) : Proc World SchedulerError Bool := do
  let startedAt ← monotonicNs host
  let task := { task with state := .running, startedAt := startedAt }
  let elapsedNs ← Proc.lift (sub task.startedAt task.createdAt)
  let elapsedMs := elapsedNs / 1000000
  if task.timeoutMs < elapsedMs then do
    append delivers { task with state := .timeout, errorCode := -1 }
    pure true
  else do
    -- the call of the handler
    Proc.modify fun w => { w with invoked := w.invoked ++ [task.id] }
    let completedAt ← monotonicNs host
    append delivers { task with state := .completed, completedAt := completedAt }
    -- the duration in the log
    let _ ← Proc.lift (sub completedAt task.startedAt)
    pure true

def tick (delivers : Bool) : Proc World SchedulerError Bool := do
  let w ← Proc.get
  if w.scheduler.taskQueue.length = 0 then pure false
  else
    match host.queue.pop w.scheduler.taskQueue with
    | none => pure false
    | some (task, rest) => do
      Proc.modify fun w => { w with scheduler := { w.scheduler with taskQueue := rest } }
      runTask host delivers task

end SkillScheduler

/-- A call of the scheduler; `delivers` says whether its allocation succeeds. -/
inductive Call where
  | submit (delivers : Bool) (name : List UInt8) (priority : TaskPriority) (handler : Handler)
  | tick (delivers : Bool)

def Call.Delivers : Call → Prop
  | .submit delivers _ _ _ => delivers = true
  | .tick delivers => delivers = true

/-- A trap stops the process. -/
def resume {α : Type} : Outcome SchedulerError α × World → Option World
  | (.trap _, _) => none
  | (_, w') => some w'

/-- The task that a submission asks for. -/
def newTask (host : Host) (w : World) (name : List UInt8) (priority : TaskPriority)
    (handler : Handler) : Task where
  id := w.scheduler.nextId
  name := name
  priority := priority
  state := .pending
  timeoutMs := w.scheduler.defaultTimeoutMs
  retryCount := 0
  maxRetries := 3
  createdAt := host.clock w.reads
  startedAt := 0
  completedAt := 0
  errorCode := 0
  handler := handler

/-- The record of a submission: it enters the task if the answer is success. -/
def record (task : Task) : Outcome SchedulerError Unit × World → Outcome SchedulerError Unit × World
  | (.ok (), w) => (.ok (), { w with submitted := w.submitted ++ [task] })
  | out => out

def step (host : Host) (w : World) : Call → Option World
  | .submit delivers name priority handler =>
    resume (record (newTask host w name priority handler)
      (SkillScheduler.submit host delivers name priority handler w))
  | .tick delivers => resume (SkillScheduler.tick host delivers w)

/-- A process that has just made its scheduler. -/
def booted (maxConcurrent : ℕ) : World where
  scheduler := .init maxConcurrent

end LingNet.Scheduler
