import Mathlib.Data.List.Perm.Basic
import Mathlib.Data.List.Nodup
import Aquadoggo.Library.AssocList
import Aquadoggo.Library.Transition

/-! The task queue of one worker pool (`materializer/worker.rs`). The dispatcher batches tasks
of one input through the input index; a worker pops an item, runs it, sends the tasks it
returned, and then removes the index entry, requeueing the input when more tasks came in
meanwhile. Each locked section, queue operation and channel send is one atomic step. -/
namespace Aquadoggo.Materializer

open Library

abbrev WorkerName := String

structure Task (IN : Type) where
  workerName : WorkerName
  input : IN
deriving DecidableEq, Repr

inductive TaskStatus (IN : Type) where
  | pending (task : Task IN)
  | completed (task : Task IN)
deriving DecidableEq, Repr

inductive PostAction where
  | requeue
  | idle
deriving DecidableEq, Repr

structure QueueItem (IN : Type) where
  id : Nat
  input : IN
deriving DecidableEq, Repr

/-- Where one worker of the pool is in its loop. -/
inductive WorkerPhase (IN : Type) where
  | idle
  | working (item : QueueItem IN)
  /-- Sending the tasks of `Ok(Some(list))`, one `tx.send` at a time. -/
  | dispatching (item : QueueItem IN) (tasks : List (Task IN))
  /-- The index entry is gone; the input is requeued or reported completed. -/
  | finishing (item : QueueItem IN) (requeue : Bool)
deriving DecidableEq, Repr

/-- The item a worker holds while its input is still in the index. -/
def WorkerPhase.activeItem {IN : Type} : WorkerPhase IN → Option (QueueItem IN)
  | .working item => some item
  | .dispatching item _ => some item
  | _ => none

structure Pool (IN : Type) where
  name : WorkerName
  inputIndex : List (IN × PostAction)
  queue : List (QueueItem IN)
  counter : Nat
  workers : List (WorkerPhase IN)
  /-- Tasks sent on the broadcast channel that the dispatcher has not received yet. -/
  inbox : List (Task IN)
  /-- Messages sent on the status channel that nobody has received yet. -/
  statuses : List (TaskStatus IN)
deriving DecidableEq, Repr

inductive PoolEvent (IN : Type) where
  /-- Another part of the node, or a worker of another pool, sends a task. -/
  | broadcast (task : Task IN)
  | dispatch
  | pop (worker : Nat)
  /-- The work function returns the tasks it dispatches, none on a failure. -/
  | work (worker : Nat) (tasks : List (Task IN))
  | send (worker : Nat)
  | release (worker : Nat)
  | complete (worker : Nat)
deriving DecidableEq, Repr

namespace Pool

variable {IN : Type} [DecidableEq IN]

/-- The pool `register` spawns: `pool_size` idle workers and nothing queued. -/
def new (name : WorkerName) (poolSize : Nat) : Pool IN :=
  ⟨name, [], [], 0, List.replicate poolSize .idle, [], []⟩

/-- One round of the dispatcher loop for a received task. -/
def onTask (self : Pool IN) (task : Task IN) : Pool IN :=
  if task.workerName ≠ self.name then self
  else
    match self.inputIndex.lookup task.input with
    | none =>
      { self with
        statuses := self.statuses ++ [.pending task]
        queue := self.queue ++ [⟨self.counter, task.input⟩]
        counter := self.counter + 1
        inputIndex := insertMap self.inputIndex task.input .idle }
    | some .idle => { self with inputIndex := insertMap self.inputIndex task.input .requeue }
    | some .requeue => self

/-- The end of a worker's loop: send the input again, or report it completed. -/
def finish (self : Pool IN) (worker : Nat) (item : QueueItem IN) (requeue : Bool) : Pool IN :=
  if requeue then
    { self with
      inbox := self.inbox ++ [⟨self.name, item.input⟩]
      workers := self.workers.set worker .idle }
  else
    { self with
      statuses := self.statuses ++ [.completed ⟨self.name, item.input⟩]
      workers := self.workers.set worker .idle }

section Finish

omit [DecidableEq IN]

variable (self : Pool IN) (worker : Nat) (item : QueueItem IN) (requeue : Bool)

@[simp] theorem finish_name : (self.finish worker item requeue).name = self.name := by
  cases requeue <;> rfl

@[simp] theorem finish_inputIndex : (self.finish worker item requeue).inputIndex = self.inputIndex := by
  cases requeue <;> rfl

@[simp] theorem finish_queue : (self.finish worker item requeue).queue = self.queue := by
  cases requeue <;> rfl

@[simp] theorem finish_workers :
    (self.finish worker item requeue).workers = self.workers.set worker .idle := by
  cases requeue <;> rfl

theorem finish_inbox : (self.finish worker item requeue).inbox =
    if requeue then self.inbox ++ [⟨self.name, item.input⟩] else self.inbox := by
  cases requeue <;> rfl

theorem finish_statuses : (self.finish worker item requeue).statuses =
    if requeue then self.statuses else self.statuses ++ [.completed ⟨self.name, item.input⟩] := by
  cases requeue <;> rfl

end Finish

inductive Step : Pool IN → PoolEvent IN → Pool IN → Prop where
  | broadcast {self : Pool IN} (task : Task IN) :
      Step self (.broadcast task) { self with inbox := self.inbox ++ [task] }
  | dispatch {self : Pool IN} {task : Task IN} {rest : List (Task IN)}
      (head : self.inbox = task :: rest) :
      Step self .dispatch (onTask { self with inbox := rest } task)
  | pop {self : Pool IN} {worker : Nat} {item : QueueItem IN} {rest : List (QueueItem IN)}
      (idle : self.workers[worker]? = some .idle) (head : self.queue = item :: rest) :
      Step self (.pop worker)
        { self with queue := rest, workers := self.workers.set worker (.working item) }
  | work {self : Pool IN} {worker : Nat} {item : QueueItem IN} (tasks : List (Task IN))
      (working : self.workers[worker]? = some (.working item)) :
      Step self (.work worker tasks)
        { self with workers := self.workers.set worker (.dispatching item tasks) }
  | send {self : Pool IN} {worker : Nat} {item : QueueItem IN} {task : Task IN}
      {tasks : List (Task IN)} (sending : self.workers[worker]? = some (.dispatching item (task :: tasks))) :
      Step self (.send worker)
        { self with
          inbox := self.inbox ++ [task]
          workers := self.workers.set worker (.dispatching item tasks) }
  | release {self : Pool IN} {worker : Nat} {item : QueueItem IN}
      (sent : self.workers[worker]? = some (.dispatching item [])) :
      Step self (.release worker)
        { self with
          inputIndex := eraseMap self.inputIndex item.input
          workers := self.workers.set worker
            (.finishing item (self.inputIndex.lookup item.input == some .requeue)) }
  | complete {self : Pool IN} {worker : Nat} {item : QueueItem IN} {requeue : Bool}
      (finishing : self.workers[worker]? = some (.finishing item requeue)) :
      Step self (.complete worker) (self.finish worker item requeue)

/-- The items whose input is in the index: queued, or held by a worker that has not
removed its index entry yet. -/
def active (self : Pool IN) : List (QueueItem IN) :=
  self.queue ++ self.workers.filterMap WorkerPhase.activeItem

def activeInputs (self : Pool IN) : List IN := self.active.map (·.input)

end Pool

theorem filterMap_cons_eq_toList_append {α β : Type} (f : α → Option β) (a : α) (l : List α) :
    (a :: l).filterMap f = (f a).toList ++ l.filterMap f := by
  cases h : f a <;> simp [h]

open List in
/-- Replacing one element changes a `filterMap` by what the old and the new element map to. -/
theorem filterMap_set_perm {α β : Type} (f : α → Option β) {l : List α} {i : Nat} {a : α}
    (h : l[i]? = some a) (b : α) :
    ((f a).toList ++ (l.set i b).filterMap f).Perm ((f b).toList ++ l.filterMap f) := by
  obtain ⟨hi, ha⟩ := List.getElem?_eq_some_iff.mp h
  have hset := (List.set_perm_cons_eraseIdx hi b).filterMap f
  have hl := (List.getElem_cons_eraseIdx_perm hi).filterMap f
  rw [ha, filterMap_cons_eq_toList_append] at hl
  rw [filterMap_cons_eq_toList_append] at hset
  calc (f a).toList ++ (l.set i b).filterMap f
      ~ (f a).toList ++ ((f b).toList ++ (l.eraseIdx i).filterMap f) := hset.append_left _
    _ ~ (f b).toList ++ ((f a).toList ++ (l.eraseIdx i).filterMap f) := perm_append_comm_assoc _ _ _
    _ ~ (f b).toList ++ l.filterMap f := hl.append_left _

/-- Two positions of a list whose elements map to one value of a duplicate-free `filterMap`
are the same position. -/
theorem eq_of_filterMap_nodup {α β : Type} (f : α → Option β) :
    ∀ {l : List α} {i j : Nat} {p q : α} {b : β}, (l.filterMap f).Nodup → l[i]? = some p →
      l[j]? = some q → f p = some b → f q = some b → i = j
  | [], _, _, _, _, _, _, hi, _, _, _ => by simp at hi
  | x :: xs, i, j, p, q, b, hnodup, hi, hj, hp, hq => by
    rw [filterMap_cons_eq_toList_append] at hnodup
    cases i with
    | zero =>
      cases j with
      | zero => rfl
      | succ j =>
        simp only [List.getElem?_cons_zero, Option.some.injEq] at hi
        subst hi
        rw [hp] at hnodup
        simp at hnodup
        exact absurd hq (hnodup.1 q (List.mem_of_getElem? (by simpa using hj)))
    | succ i =>
      cases j with
      | zero =>
        simp only [List.getElem?_cons_zero, Option.some.injEq] at hj
        subst hj
        rw [hq] at hnodup
        simp at hnodup
        exact absurd hp (hnodup.1 p (List.mem_of_getElem? (by simpa using hi)))
      | succ j =>
        have htail : (xs.filterMap f).Nodup := (List.nodup_append.mp hnodup).2.1
        simp only [List.getElem?_cons_succ] at hi hj
        rw [eq_of_filterMap_nodup f htail hi hj hp hq]

namespace Pool

variable {IN : Type} [DecidableEq IN]

omit [DecidableEq IN] in
/-- The running items after worker `worker` moves from `old` to `new`. -/
theorem running_set {self : Pool IN} {worker : Nat} {old : WorkerPhase IN}
    (h : self.workers[worker]? = some old) (new : WorkerPhase IN) :
    (old.activeItem.toList ++ (self.workers.set worker new).filterMap WorkerPhase.activeItem).Perm
      (new.activeItem.toList ++ self.workers.filterMap WorkerPhase.activeItem) :=
  filterMap_set_perm WorkerPhase.activeItem h new

/-- The index holds exactly the inputs of the active items, each once. -/
structure Indexed (pool : Pool IN) : Prop where
  keys_nodup : (pool.inputIndex.map (·.1)).Nodup
  keys_perm : (pool.inputIndex.map (·.1)).Perm pool.activeInputs

omit [DecidableEq IN] in
theorem indexed_new (name : WorkerName) (poolSize : Nat) : (Pool.new name poolSize : Pool IN).Indexed := by
  refine ⟨by simp [Pool.new], ?_⟩
  simp [Pool.new, activeInputs, active, WorkerPhase.activeItem, List.filterMap_replicate]

theorem indexed_onTask {self : Pool IN} (h : self.Indexed) (task : Task IN) :
    (self.onTask task).Indexed := by
  unfold onTask
  split
  · exact h
  · have hkeys := keys_insertMap self.inputIndex task.input
    split
    · next hnone =>
      have hfresh : task.input ∉ self.inputIndex.map (·.1) := by
        rw [← lookup_isSome_iff_mem_keys, hnone]
        simp
      refine ⟨keys_nodup_insertMap h.keys_nodup _ _, ?_⟩
      rw [hkeys, if_neg hfresh]
      simp only [activeInputs, active, List.append_assoc, List.map_append, List.map_cons,
        List.map_nil]
      refine (h.keys_perm.append_right [task.input]).trans ?_
      simpa [activeInputs, active] using (List.perm_append_singleton _ _).append_left _
    · next hidle =>
      have hmem : task.input ∈ self.inputIndex.map (·.1) := by
        rw [← lookup_isSome_iff_mem_keys, hidle]
        rfl
      refine ⟨keys_nodup_insertMap h.keys_nodup _ _, ?_⟩
      rw [hkeys, if_pos hmem]
      exact h.keys_perm
    · exact h

omit [DecidableEq IN] in
/-- A step that keeps the index and the queue and only moves running items around. -/
theorem indexed_of_running_perm {self next : Pool IN} (h : self.Indexed)
    (hindex : next.inputIndex = self.inputIndex) (hqueue : next.queue = self.queue)
    (hrunning : (next.workers.filterMap WorkerPhase.activeItem).Perm
      (self.workers.filterMap WorkerPhase.activeItem)) : next.Indexed := by
  refine ⟨hindex ▸ h.keys_nodup, ?_⟩
  rw [hindex]
  refine h.keys_perm.trans ?_
  unfold activeInputs active
  rw [hqueue]
  exact ((hrunning.append_left _).map _).symm

omit [DecidableEq IN] in
/-- A worker that moves between two phases holding the same item leaves the running items. -/
theorem running_set_same {self : Pool IN} {worker : Nat} {old : WorkerPhase IN}
    (h : self.workers[worker]? = some old) (new : WorkerPhase IN)
    (hsame : old.activeItem = new.activeItem) :
    ((self.workers.set worker new).filterMap WorkerPhase.activeItem).Perm
      (self.workers.filterMap WorkerPhase.activeItem) := by
  have hperm := running_set h new
  rw [hsame] at hperm
  exact List.perm_append_left_iff _ |>.mp hperm

omit [DecidableEq IN] in
theorem indexed_pop {self : Pool IN} (h : self.Indexed) {worker : Nat} {item : QueueItem IN}
    {rest : List (QueueItem IN)} (idle : self.workers[worker]? = some .idle)
    (head : self.queue = item :: rest) :
    ({ self with queue := rest, workers := self.workers.set worker (.working item) } : Pool IN).Indexed := by
  have hrunning := running_set idle (.working item)
  simp only [WorkerPhase.activeItem, Option.toList_none, List.nil_append, Option.toList_some,
    List.singleton_append] at hrunning
  refine ⟨h.keys_nodup, h.keys_perm.trans ?_⟩
  simp only [activeInputs, active, head, List.cons_append, List.map_cons, List.map_append]
  exact (List.perm_middle.symm.trans ((hrunning.map _).symm.append_left _)) |>.trans
    (by simp)

theorem indexed_release {self : Pool IN} (h : self.Indexed) {worker : Nat} {item : QueueItem IN}
    (sent : self.workers[worker]? = some (.dispatching item [])) (requeue : Bool) :
    ({ self with
        inputIndex := eraseMap self.inputIndex item.input
        workers := self.workers.set worker (.finishing item requeue) } : Pool IN).Indexed := by
  have hrunning := running_set sent (.finishing item requeue)
  simp only [WorkerPhase.activeItem, Option.toList_none, List.nil_append, Option.toList_some,
    List.singleton_append] at hrunning
  refine ⟨keys_nodup_eraseMap h.keys_nodup _, ?_⟩
  rw [keys_eraseMap]
  -- The index lost exactly the released input, and so did the active items.
  have hactive : self.activeInputs.Perm (item.input :: (({ self with
      inputIndex := eraseMap self.inputIndex item.input
      workers := self.workers.set worker (.finishing item requeue) } : Pool IN).activeInputs)) := by
    simp only [activeInputs, active, List.map_append]
    exact ((hrunning.map _).symm.append_left _).trans (by simp)
  simpa using (h.keys_perm.trans hactive).erase item.input

omit [DecidableEq IN] in
theorem indexed_finish {self : Pool IN} (h : self.Indexed) {worker : Nat} {item : QueueItem IN}
    {requeue : Bool} (finishing : self.workers[worker]? = some (.finishing item requeue)) :
    (self.finish worker item requeue).Indexed := by
  refine indexed_of_running_perm h (finish_inputIndex ..) (finish_queue ..) ?_
  rw [finish_workers]
  exact running_set_same finishing .idle rfl

/-- Every step keeps the index in line with the active items. -/
theorem indexed_step {self next : Pool IN} {event : PoolEvent IN} (h : self.Indexed)
    (hstep : Step self event next) : next.Indexed := by
  cases hstep with
  | broadcast => exact ⟨h.keys_nodup, h.keys_perm⟩
  | dispatch =>
    refine indexed_onTask ?_ _
    exact ⟨h.keys_nodup, h.keys_perm⟩
  | pop idle head => exact indexed_pop h idle head
  | work tasks working => exact indexed_of_running_perm h rfl rfl (running_set_same working _ rfl)
  | send sending => exact indexed_of_running_perm h rfl rfl (running_set_same sending _ rfl)
  | release sent => exact indexed_release h sent _
  | complete finishing => exact indexed_finish h finishing

/-- What the dispatcher did with a task of this pool: queue a new item, or absorb it into
the item already indexed. -/
inductive Dispatched (IN : Type) where
  | enqueued (input : IN)
  | absorbed (input : IN)
deriving DecidableEq, Repr

/-- The entry `onTask` adds to the dispatcher's history. -/
def dispatched (self : Pool IN) (task : Task IN) : List (Dispatched IN) :=
  if task.workerName ≠ self.name then []
  else
    match self.inputIndex.lookup task.input with
    | none => [.enqueued task.input]
    | some _ => [.absorbed task.input]

/-- Whether the last thing the dispatcher did with `input` was to absorb a task. -/
def absorbedSince (history : List (Dispatched IN)) (input : IN) : Bool :=
  history.foldl (fun absorbed entry =>
    match entry with
    | .enqueued other => if other = input then false else absorbed
    | .absorbed other => if other = input then true else absorbed) false

/-- The pool with the history of the dispatcher's decisions, which no code reads. -/
inductive Traced : Pool IN × List (Dispatched IN) → PoolEvent IN →
    Pool IN × List (Dispatched IN) → Prop where
  | dispatch {self : Pool IN} {history : List (Dispatched IN)} {task : Task IN}
      {rest : List (Task IN)} (head : self.inbox = task :: rest) :
      Traced (self, history) .dispatch
        (onTask { self with inbox := rest } task, history ++ dispatched { self with inbox := rest } task)
  | other {self next : Pool IN} {history : List (Dispatched IN)} {event : PoolEvent IN}
      (hevent : event ≠ .dispatch) (hstep : Step self event next) :
      Traced (self, history) event (next, history)

/-- Every run of the pool is the pool part of a traced run: the history only records. -/
theorem Traced.lift {start next : Pool IN} {events : List (PoolEvent IN)}
    (run : Run Step start events next) (history : List (Dispatched IN)) :
    ∃ history', Run Traced (start, history) events (next, history') := by
  induction run with
  | nil => exact ⟨history, Run.nil _⟩
  | snoc _ hstep ih =>
    obtain ⟨history', traced⟩ := ih
    cases hstep with
    | dispatch head => exact ⟨_, Run.snoc traced (Traced.dispatch head)⟩
    | broadcast task => exact ⟨_, Run.snoc traced (Traced.other (by simp) (Step.broadcast task))⟩
    | pop idle head => exact ⟨_, Run.snoc traced (Traced.other (by simp) (Step.pop idle head))⟩
    | work tasks working =>
      exact ⟨_, Run.snoc traced (Traced.other (by simp) (Step.work tasks working))⟩
    | send sending => exact ⟨_, Run.snoc traced (Traced.other (by simp) (Step.send sending))⟩
    | release sent => exact ⟨_, Run.snoc traced (Traced.other (by simp) (Step.release sent))⟩
    | complete finishing =>
      exact ⟨_, Run.snoc traced (Traced.other (by simp) (Step.complete finishing))⟩

@[simp] theorem absorbedSince_nil (input : IN) : absorbedSince [] input = false := rfl

theorem absorbedSince_enqueued (history : List (Dispatched IN)) (other input : IN) :
    absorbedSince (history ++ [.enqueued other]) input =
      if other = input then false else absorbedSince history input := by
  simp [absorbedSince, List.foldl_append]

theorem absorbedSince_absorbed (history : List (Dispatched IN)) (other input : IN) :
    absorbedSince (history ++ [.absorbed other]) input =
      if other = input then true else absorbedSince history input := by
  simp [absorbedSince, List.foldl_append]

section OnTask

variable (self : Pool IN) (task : Task IN)

@[simp] theorem onTask_name : (self.onTask task).name = self.name := by
  unfold onTask
  split
  · rfl
  · split <;> rfl

@[simp] theorem onTask_workers : (self.onTask task).workers = self.workers := by
  unfold onTask
  split
  · rfl
  · split <;> rfl

@[simp] theorem onTask_inbox : (self.onTask task).inbox = self.inbox := by
  unfold onTask
  split
  · rfl
  · split <;> rfl

end OnTask

/-- A task leaves the index entry of every other input, and a task of another pool leaves the
index alone. -/
theorem onTask_lookup_of_not {self : Pool IN} {task : Task IN} {input : IN}
    (h : ¬(task.workerName = self.name ∧ task.input = input)) :
    (self.onTask task).inputIndex.lookup input = self.inputIndex.lookup input := by
  unfold onTask
  split
  · rfl
  next hname =>
  have hinput : input ≠ task.input := fun heq => h ⟨not_not.mp hname, heq.symm⟩
  split <;> simp [lookup_insertMap, hinput]

/-- A task of this pool whose input is indexed leaves the requeue flag. -/
theorem onTask_lookup_absorbed {self : Pool IN} {task : Task IN} (hname : task.workerName = self.name)
    (hsome : (self.inputIndex.lookup task.input).isSome) :
    (self.onTask task).inputIndex.lookup task.input = some .requeue := by
  obtain ⟨action, haction⟩ := Option.isSome_iff_exists.mp hsome
  cases action <;> simp [onTask, hname, haction]

theorem absorbedSince_dispatched (history : List (Dispatched IN)) (self : Pool IN) (task : Task IN)
    (input : IN) : absorbedSince (history ++ self.dispatched task) input =
      if task.workerName = self.name ∧ task.input = input then (self.inputIndex.lookup task.input).isSome
      else absorbedSince history input := by
  unfold dispatched
  by_cases hname : task.workerName = self.name
  · cases hlookup : self.inputIndex.lookup task.input <;>
      simp [hname, absorbedSince_enqueued, absorbedSince_absorbed]
  · simp [hname]

/-- A task absorbed since its input's item was queued has set the requeue flag. -/
def Batched (self : Pool IN) (history : List (Dispatched IN)) : Prop :=
  ∀ input, absorbedSince history input = true → (self.inputIndex.lookup input).isSome →
    self.inputIndex.lookup input = some .requeue

theorem batched_onTask {self : Pool IN} {history : List (Dispatched IN)}
    (h : self.Batched history) (task : Task IN) :
    (self.onTask task).Batched (history ++ self.dispatched task) := by
  intro input habsorbed hsome
  rw [absorbedSince_dispatched] at habsorbed
  split at habsorbed
  next hown =>
    -- The task was absorbed: `onTask` leaves the requeue flag for its input.
    obtain ⟨hname, rfl⟩ := hown
    exact onTask_lookup_absorbed hname habsorbed
  next hother =>
    rw [onTask_lookup_of_not hother] at hsome ⊢
    exact h input habsorbed hsome

theorem Traced.step {before after : Pool IN × List (Dispatched IN)} {event : PoolEvent IN}
    (h : Traced before event after) : Step before.1 event after.1 := by
  cases h with
  | dispatch head => exact Step.dispatch head
  | other _ hstep => exact hstep

theorem batched_step {before after : Pool IN × List (Dispatched IN)} {event : PoolEvent IN}
    (hindexed : before.1.Indexed) (h : before.1.Batched before.2) (hstep : Traced before event after) :
    after.1.Batched after.2 := by
  cases hstep with
  | dispatch head =>
    refine batched_onTask ?_ _
    exact h
  | other hevent hstep =>
    cases hstep with
    | broadcast => exact h
    | dispatch => exact absurd rfl hevent
    | pop => exact h
    | work => exact h
    | send => exact h
    | @release _ item sent =>
      intro input habsorbed hsome
      simp only [lookup_eraseMap hindexed.keys_nodup] at hsome ⊢
      by_cases hreleased : input = item.input
      · simp [hreleased] at hsome
      · rw [if_neg hreleased] at hsome ⊢
        exact h input habsorbed hsome
    | complete =>
      intro input habsorbed hsome
      rw [finish_inputIndex] at hsome ⊢
      exact h input habsorbed hsome

/-- A worker done with an item of `input` whose index entry held the requeue flag: it is about
to send `input` again. -/
def Requeueing (workers : List (WorkerPhase IN)) (input : IN) : Prop :=
  ∃ (worker : Nat) (item : QueueItem IN), workers[worker]? = some (.finishing item true) ∧
    item.input = input

omit [DecidableEq IN] in
/-- Moving a worker that was not about to requeue keeps every worker that is. -/
theorem Requeueing.set {workers : List (WorkerPhase IN)} {input : IN} (h : Requeueing workers input)
    {worker : Nat} {old : WorkerPhase IN} (hold : workers[worker]? = some old)
    (hnot : ∀ item, old ≠ .finishing item true) (new : WorkerPhase IN) :
    Requeueing (workers.set worker new) input := by
  obtain ⟨j, item, hj, hinput⟩ := h
  have hne : worker ≠ j := by
    rintro rfl
    exact hnot item (Option.some.inj (hold.symm.trans hj))
  refine ⟨j, item, ?_, hinput⟩
  rw [List.getElem?_set_ne hne]
  exact hj

/-- A task for `input` is still owed to the pool: the index entry holds the requeue flag, a
worker is about to send the input again, or the task is on the channel. -/
def Pending (self : Pool IN) (input : IN) : Prop :=
  self.inputIndex.lookup input = some .requeue ∨ Requeueing self.workers input ∨
    ⟨self.name, input⟩ ∈ self.inbox

/-- No absorbed task is lost: for every input absorbed since its item was queued, a task is
still owed to the pool. -/
def NoLost (self : Pool IN) (history : List (Dispatched IN)) : Prop :=
  ∀ input, absorbedSince history input = true → self.Pending input

theorem Pending.mono {self next : Pool IN} {input : IN} (h : self.Pending input)
    (hindex : next.inputIndex = self.inputIndex) (hname : next.name = self.name)
    (hworkers : Requeueing self.workers input → Requeueing next.workers input)
    (hinbox : self.inbox ⊆ next.inbox) : next.Pending input := by
  rcases h with hrequeue | hrequeueing | hsent
  · left
    rw [hindex]
    exact hrequeue
  · exact Or.inr (Or.inl (hworkers hrequeueing))
  · right; right
    rw [hname]
    exact hinbox hsent

/-- The dispatcher keeps every task owed: the one it absorbs leaves the requeue flag, and any
other leaves the channel with the owed tasks behind it. -/
theorem noLost_dispatch {self : Pool IN} {history : List (Dispatched IN)} {task : Task IN}
    {rest : List (Task IN)} (h : self.NoLost history) (head : self.inbox = task :: rest) :
    (onTask { self with inbox := rest } task).NoLost
      (history ++ dispatched { self with inbox := rest } task) := by
  intro input habsorbed
  rw [absorbedSince_dispatched] at habsorbed
  split at habsorbed
  next hown =>
    obtain ⟨hname, rfl⟩ := hown
    exact Or.inl (onTask_lookup_absorbed hname habsorbed)
  next hother =>
    have hne : task ≠ ⟨self.name, input⟩ := by
      rintro rfl
      exact hother ⟨rfl, rfl⟩
    rcases h input habsorbed with hrequeue | hrequeueing | hsent
    · exact Or.inl ((onTask_lookup_of_not hother).trans hrequeue)
    · right; left
      rw [onTask_workers]
      exact hrequeueing
    · right; right
      rw [onTask_inbox, onTask_name]
      rw [head] at hsent
      exact (List.mem_cons.mp hsent).resolve_left (Ne.symm hne)

/-- Releasing the index entry hands its requeue flag to the worker. -/
theorem Pending.release {self : Pool IN} (hindexed : self.Indexed) {worker : Nat}
    {item : QueueItem IN} (sent : self.workers[worker]? = some (.dispatching item []))
    {input : IN} (h : self.Pending input) :
    ({ self with
        inputIndex := eraseMap self.inputIndex item.input
        workers := self.workers.set worker
          (.finishing item (self.inputIndex.lookup item.input == some .requeue)) } : Pool IN).Pending
      input := by
  rcases h with hrequeue | hrequeueing | hsent
  · by_cases hreleased : input = item.input
    · subst hreleased
      refine Or.inr (Or.inl ⟨worker, item, ?_, rfl⟩)
      rw [hrequeue, List.getElem?_set_self (List.getElem?_eq_some_iff.mp sent).1]
      rfl
    · left
      simp only [lookup_eraseMap hindexed.keys_nodup, if_neg hreleased]
      exact hrequeue
  · exact Or.inr (Or.inl (hrequeueing.set sent (fun _ => by simp) _))
  · exact Or.inr (Or.inr hsent)

/-- Completing keeps every task owed: a worker that was about to requeue has put its input on
the channel. -/
theorem Pending.finish {self : Pool IN} {worker : Nat} {item : QueueItem IN} {requeue : Bool}
    (finishing : self.workers[worker]? = some (.finishing item requeue)) {input : IN}
    (h : self.Pending input) : (self.finish worker item requeue).Pending input := by
  rcases h with hrequeue | ⟨j, held, hj, rfl⟩ | hsent
  · left
    rw [finish_inputIndex]
    exact hrequeue
  · by_cases hsame : worker = j
    · subst hsame
      obtain ⟨rfl, rfl⟩ : item = held ∧ requeue = true := by simpa [finishing] using hj
      right; right
      simp [finish_inbox]
    · refine Or.inr (Or.inl ⟨j, held, ?_, rfl⟩)
      rw [finish_workers, List.getElem?_set_ne hsame]
      exact hj
  · right; right
    rw [finish_name, finish_inbox]
    split
    · exact List.mem_append_left _ hsent
    · exact hsent

theorem noLost_step {before after : Pool IN × List (Dispatched IN)} {event : PoolEvent IN}
    (hindexed : before.1.Indexed) (h : before.1.NoLost before.2) (hstep : Traced before event after) :
    after.1.NoLost after.2 := by
  cases hstep with
  | dispatch head => exact noLost_dispatch h head
  | other hevent hstep =>
    intro input habsorbed
    have hpending := h input habsorbed
    -- Apart from the dispatcher, a step moves one worker, and adds to the channel at most.
    cases hstep with
    | broadcast task => exact hpending.mono rfl rfl id (List.subset_append_left _ _)
    | dispatch => exact absurd rfl hevent
    | pop idle head =>
      exact hpending.mono rfl rfl (·.set idle (fun _ => by simp) _) (List.Subset.refl _)
    | work tasks working =>
      exact hpending.mono rfl rfl (·.set working (fun _ => by simp) _) (List.Subset.refl _)
    | send sending =>
      exact hpending.mono rfl rfl (·.set sending (fun _ => by simp) _) (List.subset_append_left _ _)
    | release sent => exact hpending.release hindexed sent
    | complete finishing => exact hpending.finish finishing

/-- What every run of a pool keeps: the index matches the active items, absorbed tasks left the
requeue flag, and no absorbed task is lost. -/
structure Invariant (state : Pool IN × List (Dispatched IN)) : Prop where
  indexed : state.1.Indexed
  batched : state.1.Batched state.2
  noLost : state.1.NoLost state.2

theorem invariant_new (name : WorkerName) (poolSize : Nat) :
    Invariant ((Pool.new name poolSize : Pool IN), []) :=
  ⟨indexed_new name poolSize, fun _ habsorbed _ => by simp at habsorbed,
    fun _ habsorbed => by simp at habsorbed⟩

theorem invariant_step {before after : Pool IN × List (Dispatched IN)} {event : PoolEvent IN}
    (h : Invariant before) (hstep : Traced before event after) : Invariant after :=
  ⟨indexed_step h.indexed hstep.step, batched_step h.indexed h.batched hstep,
    noLost_step h.indexed h.noLost hstep⟩

theorem name_step {self next : Pool IN} {event : PoolEvent IN} (hstep : Step self event next) :
    next.name = self.name := by
  cases hstep with
  | dispatch => exact onTask_name _ _
  | complete => exact finish_name ..
  | broadcast | pop | work | send | release => rfl

/-- The one step that completes a worker finishing `item` runs `finish`. -/
theorem traced_complete {state next : Pool IN × List (Dispatched IN)} {worker : Nat}
    {item : QueueItem IN} {requeue : Bool}
    (finishing : state.1.workers[worker]? = some (.finishing item requeue))
    (hstep : Traced state (.complete worker) next) :
    next = (state.1.finish worker item requeue, state.2) := by
  cases hstep with
  | other _ hstep =>
    cases hstep with
    | complete finishing' =>
      obtain ⟨rfl, rfl⟩ : _ ∧ _ := by simpa [finishing] using finishing'
      rfl

omit [DecidableEq IN] in
/-- Two workers never hold items of one input at once. -/
theorem Indexed.workers_distinct {self : Pool IN} (h : self.Indexed) {i j : Nat}
    {p q : WorkerPhase IN} {a b : QueueItem IN} (hi : self.workers[i]? = some p)
    (hj : self.workers[j]? = some q) (ha : p.activeItem = some a) (hb : q.activeItem = some b)
    (hinput : a.input = b.input) : i = j := by
  have hnodup : self.activeInputs.Nodup := h.keys_perm.nodup_iff.mp h.keys_nodup
  have hrunning : (self.workers.filterMap fun phase => phase.activeItem.map (·.input)).Nodup := by
    have htail := (List.nodup_append.mp (by simpa [activeInputs, active] using hnodup)).2.1
    simpa [List.map_filterMap] using htail
  have hpa : p.activeItem.map (·.input) = some a.input := by simp [ha]
  have hqa : q.activeItem.map (·.input) = some a.input := by simp [hb, hinput]
  exact eq_of_filterMap_nodup _ hrunning hi hj hpa hqa

/-- Over every run of a registered pool, each input has at most one active item and is
indexed exactly when it has one; a task absorbed since that item was queued has left the
requeue flag, and is not lost: the flag is still in the index, a worker is about to send the
input again, or the task is on the channel; completing a worker sends its input again when the
flag was set and reports it completed otherwise; and no two workers hold items of one input. -/
theorem pool_runs_keep_inputs_batched (name : WorkerName) (poolSize : Nat)
    {events : List (PoolEvent IN)} {state : Pool IN × List (Dispatched IN)}
    (run : Run Traced ((Pool.new name poolSize : Pool IN), []) events state) (input : IN) :
    state.1.activeInputs.count input ≤ 1 ∧
      ((state.1.inputIndex.lookup input).isSome ↔ input ∈ state.1.activeInputs) ∧
      (absorbedSince state.2 input = true → (state.1.inputIndex.lookup input).isSome →
        state.1.inputIndex.lookup input = some .requeue) ∧
      (absorbedSince state.2 input = true →
        state.1.inputIndex.lookup input = some .requeue ∨ Requeueing state.1.workers input ∨
          ⟨name, input⟩ ∈ state.1.inbox) ∧
      (∀ worker item requeue next, state.1.workers[worker]? = some (.finishing item requeue) →
        item.input = input → Traced state (.complete worker) next →
          next.1.workers[worker]? = some .idle ∧
          (requeue = true → ⟨name, input⟩ ∈ next.1.inbox) ∧
          (requeue = false → .completed ⟨name, input⟩ ∈ next.1.statuses)) ∧
      (∀ (i j : Nat) (p q : WorkerPhase IN) (a b : QueueItem IN), state.1.workers[i]? = some p →
        state.1.workers[j]? = some q → p.activeItem = some a → q.activeItem = some b →
          a.input = b.input → i = j) := by
  have h : Invariant state :=
    run.invariant Invariant (fun _ _ _ h hstep => invariant_step h hstep) (invariant_new name poolSize)
  have hname : state.1.name = name :=
    run.invariant (fun state => state.1.name = name)
      (fun _ _ _ h hstep => (name_step hstep.step).trans h) rfl
  have hnodup : state.1.activeInputs.Nodup := h.indexed.keys_perm.nodup_iff.mp h.indexed.keys_nodup
  have hkeys : (state.1.inputIndex.lookup input).isSome ↔ input ∈ state.1.activeInputs := by
    rw [lookup_isSome_iff_mem_keys]
    exact h.indexed.keys_perm.mem_iff
  have hcomplete : ∀ worker item requeue next,
      state.1.workers[worker]? = some (.finishing item requeue) → item.input = input →
      Traced state (.complete worker) next →
        next.1.workers[worker]? = some .idle ∧
        (requeue = true → ⟨name, input⟩ ∈ next.1.inbox) ∧
        (requeue = false → .completed ⟨name, input⟩ ∈ next.1.statuses) := by
    rintro worker item requeue next finishing rfl hstep
    rw [traced_complete finishing hstep]
    refine ⟨?_, fun hrequeue => ?_, fun hrequeue => ?_⟩
    · rw [finish_workers, List.getElem?_set_self (List.getElem?_eq_some_iff.mp finishing).1]
    · simp [finish_inbox, hrequeue, hname]
    · simp [finish_statuses, hrequeue, hname]
  refine ⟨List.nodup_iff_count_le_one.mp hnodup input, hkeys, h.batched input,
    fun habsorbed => hname ▸ h.noLost input habsorbed, hcomplete,
    fun _ _ _ _ _ _ => h.indexed.workers_distinct⟩

/-- A second task for an input whose item is already being worked on is absorbed and sets the
requeue flag; when the worker completes, the input is on the channel again. -/
theorem reduce_pool_absorbs_duplicate :
    ∃ state next, Run Traced ((Pool.new "reduce" 1 : Pool Nat), [])
      [.broadcast ⟨"reduce", 0⟩, .dispatch, .pop 0, .broadcast ⟨"reduce", 0⟩, .dispatch,
        .work 0 [], .release 0] state ∧
      absorbedSince state.2 0 = true ∧ Traced state (.complete 0) next ∧
      (⟨"reduce", 0⟩ : Task Nat) ∈ next.1.inbox := by
  have run : Run Traced ((Pool.new "reduce" 1 : Pool Nat), [])
      [.broadcast ⟨"reduce", 0⟩, .dispatch, .pop 0, .broadcast ⟨"reduce", 0⟩, .dispatch,
        .work 0 [], .release 0] _ :=
    Run.cons (Traced.other (by decide) (Step.broadcast _)) (Run.cons (Traced.dispatch rfl)
      (Run.cons (Traced.other (by decide) (Step.pop rfl rfl))
      (Run.cons (Traced.other (by decide) (Step.broadcast _)) (Run.cons (Traced.dispatch rfl)
      (Run.cons (Traced.other (by decide) (Step.work [] rfl))
      (Run.single (Traced.other (by decide) (Step.release rfl))))))))
  refine ⟨_, _, run, by decide, Traced.other (by decide) (Step.complete rfl), ?_⟩
  exact ((pool_runs_keep_inputs_batched "reduce" 1 run 0).2.2.2.2.1 0 ⟨0, 0⟩ true _ rfl rfl
    (Traced.other (by decide) (Step.complete rfl))).2.1 rfl

end Pool

end Aquadoggo.Materializer
