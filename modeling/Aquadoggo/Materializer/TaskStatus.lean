import Aquadoggo.Materializer.Worker

/-! The status loop of `materializer/service.rs`. It receives the pool's status messages in
channel order and applies each to the `tasks` table with `insert_task` or `remove_task`, so
that a restarted node can dispatch again what was left unfinished. -/
namespace Aquadoggo.Materializer

open Library

variable {IN : Type} [DecidableEq IN]

/-- `insert_task`: the unique index on the row makes the insert `ON CONFLICT DO NOTHING`. -/
def insertTask (tasks : List (Task IN)) (task : Task IN) : List (Task IN) :=
  if task ∈ tasks then tasks else tasks ++ [task]

/-- `remove_task`: delete the row of the task. -/
def removeTask (tasks : List (Task IN)) (task : Task IN) : List (Task IN) :=
  tasks.filter (· ≠ task)

/-- One round of the status loop. -/
def applyStatus (tasks : List (Task IN)) : TaskStatus IN → List (Task IN)
  | .pending task => insertTask tasks task
  | .completed task => removeTask tasks task

/-- The materializer service: a pool, and the `tasks` table its status messages go to. -/
structure Service (IN : Type) where
  pool : Pool IN
  tasks : List (Task IN)
deriving DecidableEq, Repr

inductive ServiceEvent (IN : Type) where
  | pool (event : PoolEvent IN)
  | applyStatus
deriving DecidableEq, Repr

namespace Service

def new (name : WorkerName) (poolSize : Nat) : Service IN := ⟨Pool.new name poolSize, []⟩

inductive Step : Service IN → ServiceEvent IN → Service IN → Prop where
  | pool {self : Service IN} {event : PoolEvent IN} {next : Pool IN}
      (hstep : Pool.Step self.pool event next) : Step self (.pool event) { self with pool := next }
  | applyStatus {self : Service IN} {status : TaskStatus IN} {rest : List (TaskStatus IN)}
      (head : self.pool.statuses = status :: rest) :
      Step self .applyStatus ⟨{ self.pool with statuses := rest }, applyStatus self.tasks status⟩

/-- Once every status message is applied, the table has a row for each active input. -/
def Recoverable (self : Service IN) : Prop :=
  self.pool.statuses = [] → ∀ input ∈ self.pool.activeInputs, ⟨self.pool.name, input⟩ ∈ self.tasks

/-- A worker takes the last index entry of an input, and before it reports the input
completed a new task for it is queued with its `Pending`. The `Completed` comes after that
`Pending` and removes the row of the queued item. -/
theorem completed_after_pending_drops_task_row :
    ∃ self, Run Step (Service.new "reduce" 1 : Service Nat)
      [.pool (.broadcast ⟨"reduce", 0⟩), .pool .dispatch, .pool (.pop 0), .pool (.work 0 []),
        .pool (.release 0), .pool (.broadcast ⟨"reduce", 0⟩), .pool .dispatch, .pool (.complete 0),
        .applyStatus, .applyStatus, .applyStatus] self ∧
      self.pool.statuses = [] ∧ 0 ∈ self.pool.activeInputs ∧ ⟨"reduce", 0⟩ ∉ self.tasks ∧
      ¬ self.Recoverable := by
  have run : Run Step (Service.new "reduce" 1 : Service Nat)
      [.pool (.broadcast ⟨"reduce", 0⟩), .pool .dispatch, .pool (.pop 0), .pool (.work 0 []),
        .pool (.release 0), .pool (.broadcast ⟨"reduce", 0⟩), .pool .dispatch, .pool (.complete 0),
        .applyStatus, .applyStatus, .applyStatus] _ :=
    Run.cons (Step.pool (Pool.Step.broadcast _)) (Run.cons (Step.pool (Pool.Step.dispatch rfl))
      (Run.cons (Step.pool (Pool.Step.pop rfl rfl)) (Run.cons (Step.pool (Pool.Step.work _ rfl))
      (Run.cons (Step.pool (Pool.Step.release rfl)) (Run.cons (Step.pool (Pool.Step.broadcast _))
      (Run.cons (Step.pool (Pool.Step.dispatch rfl)) (Run.cons (Step.pool (Pool.Step.complete rfl))
      (Run.cons (Step.applyStatus rfl) (Run.cons (Step.applyStatus rfl)
      (Run.single (Step.applyStatus rfl)))))))))))
  refine ⟨_, run, by decide, by decide, by decide, fun h => ?_⟩
  exact absurd (h (by decide) 0 (by decide)) (by decide)

end Service

end Aquadoggo.Materializer
