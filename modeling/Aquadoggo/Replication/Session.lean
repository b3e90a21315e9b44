import Aquadoggo.Replication.LogHeight

/-! One replication session with one peer (`replication/session.rs`): its state
machine `Pending → Established → Done`, its two done flags and the `SyncDone`
message it emits once its strategy is done locally. -/
namespace Aquadoggo.Replication

inductive SessionState where
  | pending
  | established
  | done
deriving DecidableEq, Repr

/-- A session of the manager's table. Only log-height sessions exist: the manager checks
`is_mode_supported` before it opens one, so the `SetReconciliation` strategy (all
`todo!()`) and the `Unknown` panic of `Session::new` are never reached. -/
structure Session where
  id : SessionId
  state : SessionState
  /-- `local`: we sent the `SyncRequest`. -/
  isLocal : Bool
  strategy : LogHeightStrategy
  isLocalDone : Bool
  isRemoteDone : Bool
  isLocalLiveMode : Bool
  isRemoteLiveMode : Bool
deriving DecidableEq, Repr

namespace Session

def new (id : SessionId) (targetSet : SchemaIdSet) (isLocal liveMode : Bool) : Session :=
  ⟨id, .pending, isLocal, LogHeightStrategy.new targetSet, false, false, liveMode, false⟩

def targetSet (self : Session) : SchemaIdSet := self.strategy.targetSet

def mode (_self : Session) : Mode := .logHeight

def isDone (self : Session) : Bool := self.state == .done

/-- `flippy_flaggy`: append `SyncDone` when the strategy's done flag flips ours. -/
def flippyFlaggy (self : Session) (result : StrategyResult) : Session × StrategyResult :=
  if result.isLocalDone && !self.isLocalDone then
    ({ self with isLocalDone := result.isLocalDone },
      { result with messages := result.messages ++ [.syncDone self.isLocalLiveMode] })
  else (self, result)

def initialMessages (self : Session) (provider : SchemaProvider) (db : Db) :
    Session × List Message :=
  let (strategy, result) := self.strategy.initialMessages provider db
  let (self, result) := flippyFlaggy { self with strategy := strategy } result
  (self, result.messages)

/-- The state update at the end of `handle_message`: any message establishes the
session, and both done flags finish it. -/
def settle (self : Session) : Session :=
  let self := if self.state == .pending then { self with state := .established } else self
  if self.isLocalDone && self.isRemoteDone then { self with state := .done } else self

/-- `handle_message`. On a strategy error the session keeps the strategy's changes
but its state is not settled; `none` is a panic in the strategy. -/
def handleMessage (self : Session) (provider : SchemaProvider) (db : Db) (message : Message) :
    Option (Session × Except ReplicationError (List Message)) :=
  match message with
  | .syncDone liveMode =>
    some (settle { self with isRemoteDone := true, isRemoteLiveMode := liveMode }, .ok [])
  | message =>
    (self.strategy.handleMessage provider db message).map fun
      | (strategy, .error err) => ({ self with strategy := strategy }, .error err)
      | (strategy, .ok result) =>
        let (self, result) := flippyFlaggy { self with strategy := strategy } result
        (settle self, .ok result.messages)

/-- What the manager sends for a handled message: the replies, or nothing on an error. -/
def replies : Except ReplicationError (List Message) → List Message
  | .ok messages => messages
  | .error _ => []

theorem flippyFlaggy_fst (self : Session) (result : StrategyResult) :
    (self.flippyFlaggy result).1 = { self with isLocalDone := self.isLocalDone || result.isLocalDone } := by
  unfold flippyFlaggy
  cases self
  cases result
  split <;> simp_all

theorem flippyFlaggy_messages (self : Session) (result : StrategyResult) :
    (self.flippyFlaggy result).2.messages = result.messages ++
      if result.isLocalDone && !self.isLocalDone then [.syncDone self.isLocalLiveMode] else [] := by
  unfold flippyFlaggy
  split <;> simp_all

theorem initialMessages_eq (self : Session) (provider : SchemaProvider) (db : Db) :
    self.initialMessages provider db =
      ((flippyFlaggy { self with strategy := (self.strategy.initialMessages provider db).1 }
        (self.strategy.initialMessages provider db).2).1,
       (flippyFlaggy { self with strategy := (self.strategy.initialMessages provider db).1 }
        (self.strategy.initialMessages provider db).2).2.messages) := rfl

/-- `settle` only moves the state, to `Done` when both flags are set. -/
theorem settle_eq (self : Session) : settle self = { self with state :=
    if self.isLocalDone && self.isRemoteDone then .done
    else if self.state = .pending then .established else self.state } := by
  unfold settle
  dsimp only
  split <;> split <;> simp_all

@[simp] theorem settle_isLocalDone (self : Session) :
    (settle self).isLocalDone = self.isLocalDone := by
  rw [settle_eq]

@[simp] theorem settle_isRemoteDone (self : Session) :
    (settle self).isRemoteDone = self.isRemoteDone := by
  rw [settle_eq]

@[simp] theorem settle_strategy (self : Session) : (settle self).strategy = self.strategy := by
  rw [settle_eq]

@[simp] theorem settle_isLocalLiveMode (self : Session) :
    (settle self).isLocalLiveMode = self.isLocalLiveMode := by
  rw [settle_eq]

theorem settle_state (self : Session) : (settle self).state =
    if self.isLocalDone && self.isRemoteDone then .done
    else if self.state = .pending then .established else self.state := by
  rw [settle_eq]

/-- `handle_message` does one of three things: take a `SyncDone`, fail in the strategy, or
pass the strategy's answer through `flippy_flaggy` and settle. -/
theorem handleMessage_cases {self next : Session} {provider : SchemaProvider} {db : Db}
    {message : Message} {out : Except ReplicationError (List Message)}
    (h : self.handleMessage provider db message = some (next, out)) :
    (∃ liveMode, message = .syncDone liveMode ∧
      next = settle { self with isRemoteDone := true, isRemoteLiveMode := liveMode } ∧ out = .ok []) ∨
    (∃ strategy err, self.strategy.handleMessage provider db message = some (strategy, .error err) ∧
      next = { self with strategy := strategy } ∧ out = .error err) ∨
    (∃ strategy result, self.strategy.handleMessage provider db message = some (strategy, .ok result) ∧
      next = settle (flippyFlaggy { self with strategy := strategy } result).1 ∧
      out = .ok (flippyFlaggy { self with strategy := strategy } result).2.messages) := by
  unfold handleMessage at h
  cases message with
  | syncDone liveMode =>
    obtain ⟨rfl, rfl⟩ := Prod.mk.inj (Option.some.inj h)
    exact .inl ⟨liveMode, rfl, rfl, rfl⟩
  | _ =>
    right
    obtain ⟨⟨strategy, result⟩, hstrategy, h⟩ := Option.map_eq_some_iff.mp h
    cases result with
    | error err =>
      obtain ⟨rfl, rfl⟩ := Prod.mk.inj h
      exact .inl ⟨strategy, err, hstrategy, rfl, rfl⟩
    | ok result =>
      obtain ⟨rfl, rfl⟩ := Prod.mk.inj h
      exact .inr ⟨strategy, result, hstrategy, rfl, rfl⟩

/-- A session panics exactly where its strategy does; `SyncDone` never reaches the strategy. -/
theorem handleMessage_eq_none {self : Session} {provider : SchemaProvider} {db : Db}
    {message : Message} :
    self.handleMessage provider db message = none ↔
      (∀ liveMode, message ≠ .syncDone liveMode) ∧
        self.strategy.handleMessage provider db message = none := by
  unfold handleMessage
  cases message with
  | syncDone liveMode => simp
  | _ => simp

/-- On a store whose entries have their operations, a session never panics. -/
theorem handleMessage_isSome {db : Db} (h : db.OperationsStored) (self : Session)
    (provider : SchemaProvider) (message : Message) :
    (self.handleMessage provider db message).isSome := by
  rw [Option.isSome_iff_ne_none, Ne, handleMessage_eq_none, LogHeightStrategy.handleMessage_eq_none]
  rintro ⟨-, remoteLogHeights, -, -, hnone⟩
  rw [← Option.not_isSome_iff_eq_none, LogHeightStrategy.entryResponses_isSome h] at hnone
  exact hnone rfl

end Session

end Aquadoggo.Replication
