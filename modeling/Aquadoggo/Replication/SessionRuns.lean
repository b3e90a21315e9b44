import Mathlib.Data.Nat.Basic
import Aquadoggo.Replication.Session
import Aquadoggo.Library.Transition

/-! Whole runs of one session as the manager drives it: `initial_messages` once, on a new
session, then `handle_message` for each message of the remote. Every call reads the store
as it is at that moment, since other sessions ingest entries in between. -/
namespace Aquadoggo.Replication

open Library

inductive SessionEvent where
  | initialMessages (db : Db)
  | handleMessage (db : Db) (message : Message)
deriving DecidableEq, Repr

def SessionEvent.db : SessionEvent → Db
  | .initialMessages db => db
  | .handleMessage db _ => db

def SessionState.rank : SessionState → Nat
  | .pending => 0
  | .established => 1
  | .done => 2

/-- No message follows a `SyncDone`: only the last message may be one. -/
def SyncDoneLast (messages : List Message) : Prop :=
  ∀ message ∈ messages.dropLast, message.isSyncDone = false

instance : DecidablePred SyncDoneLast := fun messages =>
  inferInstanceAs (Decidable (∀ message ∈ messages.dropLast, _))

theorem syncDoneLast_of_forall {messages : List Message}
    (h : ∀ message ∈ messages, message.isSyncDone = false) : SyncDoneLast messages :=
  fun message hmem => h message (List.dropLast_subset messages hmem)

theorem syncDoneLast_append_syncDone {messages : List Message}
    (h : ∀ message ∈ messages, message.isSyncDone = false) (liveMode : Bool) :
    SyncDoneLast (messages ++ [.syncDone liveMode]) := by
  intro message hmem
  rw [List.dropLast_concat] at hmem
  exact h message hmem

namespace Session

/-- A session as `Session::new` leaves it. -/
def Fresh (self : Session) : Prop :=
  self = Session.new self.id self.targetSet self.isLocal self.isLocalLiveMode

/-- One call on a session, paired with everything the session has emitted so far. -/
inductive Step (provider : SchemaProvider) :
    Session × List Message → SessionEvent → Session × List Message → Prop where
  | initialMessages {self : Session} {db : Db} (fresh : self.Fresh) :
      Step provider (self, []) (.initialMessages db) (self.initialMessages provider db)
  | handleMessage {self next : Session} {emitted : List Message} {db : Db} {message : Message}
      {out : Except ReplicationError (List Message)}
      (handled : self.handleMessage provider db message = some (next, out)) :
      Step provider (self, emitted) (.handleMessage db message) (next, emitted ++ replies out)

/-- What every run keeps: one `Have` once the strategy sent it, one `SyncDone` once the
local done flag is set, and `Done` exactly when both flags are set. -/
structure Discipline (session : Session) (emitted : List Message) : Prop where
  haves : emitted.countP Message.isHave ≤ session.strategy.sentHave.toNat
  syncDones : emitted.countP Message.isSyncDone ≤ session.isLocalDone.toNat
  done_iff : session.state = .done ↔ session.isLocalDone ∧ session.isRemoteDone

theorem Fresh.flags {self : Session} (fresh : self.Fresh) :
    self.state = .pending ∧ self.strategy = LogHeightStrategy.new self.targetSet ∧
      self.isLocalDone = false ∧ self.isRemoteDone = false := by
  rw [fresh]
  exact ⟨rfl, rfl, rfl, rfl⟩

theorem discipline_new (id : SessionId) (targetSet : SchemaIdSet) (isLocal liveMode : Bool) :
    Discipline (Session.new id targetSet isLocal liveMode) [] :=
  ⟨by simp, by simp, by simp [Session.new]⟩

theorem countP_isHave_entryResponses {strategy : LogHeightStrategy} {provider : SchemaProvider}
    {db : Db} {remoteLogHeights : List LogHeights} {responses : List Message}
    (h : strategy.entryResponses provider db remoteLogHeights = some responses) :
    responses.countP Message.isHave = 0 := by
  rw [List.countP_eq_zero]
  intro message hmem
  obtain ⟨_, _, rfl⟩ := LogHeightStrategy.mem_entryResponses h hmem
  simp

theorem countP_isSyncDone_entryResponses {strategy : LogHeightStrategy} {provider : SchemaProvider}
    {db : Db} {remoteLogHeights : List LogHeights} {responses : List Message}
    (h : strategy.entryResponses provider db remoteLogHeights = some responses) :
    responses.countP Message.isSyncDone = 0 := by
  rw [List.countP_eq_zero]
  intro message hmem
  obtain ⟨_, _, rfl⟩ := LogHeightStrategy.mem_entryResponses h hmem
  simp

/-- Settling a session whose flags only grew: `Done` exactly when both are set. -/
theorem settle_done_iff {self : Session} (h : self.state = .done → self.isLocalDone ∧ self.isRemoteDone) :
    (settle self).state = .done ↔ (settle self).isLocalDone ∧ (settle self).isRemoteDone := by
  rw [settle_isLocalDone, settle_isRemoteDone, settle_state]
  by_cases hflags : self.isLocalDone ∧ self.isRemoteDone
  · simp [hflags.1, hflags.2]
  · have hnot : self.state ≠ .done := fun hdone => hflags (h hdone)
    simp only [hflags, iff_false]
    split
    · simp_all
    · split <;> simp_all

/-- A new session sends its `Have`, and its `SyncDone` too when it holds no log. -/
theorem initialMessages_of_fresh {self : Session} (fresh : self.Fresh) (provider : SchemaProvider)
    (db : Db) :
    let logHeights := LogHeightStrategy.localLogHeights db (self.strategy.includedDocumentIds provider db)
    self.initialMessages provider db =
      ({ self with strategy := { self.strategy with sentHave := true }, isLocalDone := logHeights.isEmpty },
        self.strategy.localHave provider db ::
          if logHeights.isEmpty then [.syncDone self.isLocalLiveMode] else []) := by
  obtain ⟨-, -, hlocal, -⟩ := fresh.flags
  rw [initialMessages_eq, flippyFlaggy_fst, flippyFlaggy_messages,
    LogHeightStrategy.initialMessages_messages, LogHeightStrategy.initialMessages_isLocalDone,
    LogHeightStrategy.initialMessages_fst, hlocal]
  simp

theorem discipline_initialMessages {self : Session} (fresh : self.Fresh) (provider : SchemaProvider)
    (db : Db) : Discipline (self.initialMessages provider db).1 (self.initialMessages provider db).2 := by
  obtain ⟨hstate, -, -, hremote⟩ := fresh.flags
  rw [initialMessages_of_fresh fresh]
  refine ⟨?_, ?_, ?_⟩
  · split <;> simp [List.countP_cons, LogHeightStrategy.localHave]
  · split <;> simp_all [List.countP_cons, LogHeightStrategy.localHave]
  · simp [hstate, hremote]

theorem discipline_syncDone {self : Session} {emitted : List Message} (h : Discipline self emitted)
    (liveMode : Bool) :
    Discipline (settle { self with isRemoteDone := true, isRemoteLiveMode := liveMode }) emitted := by
  refine ⟨by simpa using h.haves, by simpa using h.syncDones, settle_done_iff ?_⟩
  intro hdone
  exact ⟨(h.done_iff.mp hdone).1, rfl⟩

theorem discipline_error {self : Session} {emitted : List Message} (h : Discipline self emitted)
    {strategy : LogHeightStrategy} {provider : SchemaProvider} {db : Db} {message : Message}
    {err : ReplicationError}
    (hstrategy : self.strategy.handleMessage provider db message = some (strategy, .error err)) :
    Discipline { self with strategy := strategy } emitted := by
  refine ⟨Nat.le_trans h.haves ?_, h.syncDones, h.done_iff⟩
  rw [LogHeightStrategy.handleMessage_error hstrategy]
  exact Bool.toNat_le _

theorem discipline_ok {self : Session} {emitted : List Message} (h : Discipline self emitted)
    {strategy : LogHeightStrategy} {provider : SchemaProvider} {db : Db} {message : Message}
    {result : StrategyResult}
    (hstrategy : self.strategy.handleMessage provider db message = some (strategy, .ok result)) :
    Discipline (settle (flippyFlaggy { self with strategy := strategy } result).1)
      (emitted ++ (flippyFlaggy { self with strategy := strategy } result).2.messages) := by
  obtain ⟨remoteLogHeights, responses, -, -, rfl, hdone, hresponses, hmessages⟩ :=
    LogHeightStrategy.handleMessage_ok hstrategy
  have haves := h.haves
  have syncDones := h.syncDones
  rw [flippyFlaggy_fst, flippyFlaggy_messages, hmessages, hdone]
  refine ⟨?_, ?_, settle_done_iff ?_⟩
  · simp only [List.countP_append, countP_isHave_entryResponses hresponses]
    cases hsent : self.strategy.sentHave <;> cases self.isLocalDone <;>
      simp [hsent, LogHeightStrategy.localHave] at haves ⊢ <;> omega
  · simp only [List.countP_append, countP_isSyncDone_entryResponses hresponses]
    cases hsent : self.strategy.sentHave <;> cases hlocal : self.isLocalDone <;>
      simp [hlocal, LogHeightStrategy.localHave] at syncDones ⊢ <;> omega
  · intro hstate
    exact ⟨by simp, (h.done_iff.mp hstate).2⟩

/-- One call keeps the discipline, whatever store it reads. -/
theorem discipline_step {provider : SchemaProvider} {before after : Session × List Message}
    {event : SessionEvent} (h : Discipline before.1 before.2) (hstep : Step provider before event after) :
    Discipline after.1 after.2 := by
  cases hstep with
  | initialMessages fresh => exact discipline_initialMessages fresh provider _
  | handleMessage handled =>
    rcases handleMessage_cases handled with ⟨liveMode, -, rfl, rfl⟩ |
      ⟨strategy, err, hstrategy, rfl, rfl⟩ | ⟨strategy, result, hstrategy, rfl, rfl⟩
    · simpa [replies] using discipline_syncDone h liveMode
    · simpa [replies] using discipline_error h hstrategy
    · simpa [replies] using discipline_ok h hstrategy

/-- Over every run of a new session, the store growing between calls or not, the session emits
at most one `Have` and at most one `SyncDone`, and it is `Done` exactly when both done flags
are set. -/
theorem runs_keep_discipline (provider : SchemaProvider) (id : SessionId) (targetSet : SchemaIdSet)
    (isLocal liveMode : Bool) {events : List SessionEvent} {session : Session × List Message}
    (run : Run (Step provider) (Session.new id targetSet isLocal liveMode, []) events session) :
    session.2.countP Message.isHave ≤ 1 ∧ session.2.countP Message.isSyncDone ≤ 1 ∧
      (session.1.state = .done ↔ session.1.isLocalDone ∧ session.1.isRemoteDone) := by
  have h : Discipline session.1 session.2 :=
    run.invariant (fun session => Discipline session.1 session.2)
      (fun _ _ _ h hstep => discipline_step h hstep) (discipline_new id targetSet isLocal liveMode)
  exact ⟨Nat.le_trans h.haves (Bool.toNat_le _), Nat.le_trans h.syncDones (Bool.toNat_le _),
    h.done_iff⟩

theorem rank_le_settle (self : Session) : self.state.rank ≤ (settle self).state.rank := by
  rw [settle_state]
  cases hstate : self.state <;> split <;> simp_all [SessionState.rank]

theorem rank_le_step {provider : SchemaProvider} {before after : Session × List Message}
    {event : SessionEvent} (hstep : Step provider before event after) :
    before.1.state.rank ≤ after.1.state.rank := by
  cases hstep with
  | initialMessages => simp [initialMessages_eq, flippyFlaggy_fst]
  | @handleMessage self next emitted db message out handled =>
    dsimp only
    rcases handleMessage_cases handled with ⟨liveMode, -, rfl, -⟩ |
      ⟨strategy, err, -, rfl, -⟩ | ⟨strategy, result, -, rfl, -⟩
    · exact rank_le_settle { self with isRemoteDone := true, isRemoteLiveMode := liveMode }
    · exact Nat.le_refl _
    · rw [flippyFlaggy_fst]
      exact rank_le_settle
        { self with strategy := strategy, isLocalDone := self.isLocalDone || result.isLocalDone }

/-- The state never moves backwards along `Pending → Established → Done`. -/
theorem state_rank_monotone {provider : SchemaProvider} {before after : Session × List Message}
    {events : List SessionEvent} (run : Run (Step provider) before events after) :
    before.1.state.rank ≤ after.1.state.rank :=
  run.monotone (fun session => session.1.state.rank) (fun _ _ _ hstep => rank_le_step hstep)

/-- The order of `SyncDone` when every call reads one store: it is last, none is out
while the local flag is unset, and once it is set nothing is left to answer with. -/
structure SyncDoneOrder (provider : SchemaProvider) (db : Db) (session : Session)
    (emitted : List Message) : Prop where
  last : SyncDoneLast emitted
  before : session.isLocalDone = false → ∀ message ∈ emitted, message.isSyncDone = false
  after : session.isLocalDone = true → session.strategy.sentHave = true ∧
    (session.strategy.receivedRemoteHave = true ∨
      LogHeightStrategy.localLogHeights db (session.strategy.includedDocumentIds provider db) = [])

theorem syncDoneOrder_new (provider : SchemaProvider) (db : Db) (id : SessionId)
    (targetSet : SchemaIdSet) (isLocal liveMode : Bool) :
    SyncDoneOrder provider db (Session.new id targetSet isLocal liveMode) [] :=
  ⟨syncDoneLast_of_forall (by simp), by simp, by simp [Session.new]⟩

theorem syncDoneOrder_initialMessages {self : Session} (fresh : self.Fresh)
    (provider : SchemaProvider) (db : Db) :
    SyncDoneOrder provider db (self.initialMessages provider db).1
      (self.initialMessages provider db).2 := by
  rw [initialMessages_of_fresh fresh]
  cases hempty : (LogHeightStrategy.localLogHeights db
      (self.strategy.includedDocumentIds provider db)).isEmpty with
  | false =>
    refine ⟨syncDoneLast_of_forall ?_, fun _ => ?_, fun hdone => ?_⟩
    · simp [LogHeightStrategy.localHave]
    · simp [LogHeightStrategy.localHave]
    · simp at hdone
  | true =>
    refine ⟨fun message hmem => ?_, fun hdone => ?_, fun _ => ?_⟩
    · simp only [if_true, List.dropLast_cons_cons, List.dropLast_singleton, List.mem_singleton] at hmem
      simp [hmem, LogHeightStrategy.localHave]
    · simp at hdone
    · exact ⟨rfl, .inr (by simpa using hempty)⟩

theorem syncDoneOrder_ok {self : Session} {emitted : List Message} {provider : SchemaProvider}
    {db : Db} (h : SyncDoneOrder provider db self emitted) {strategy : LogHeightStrategy}
    {message : Message} {result : StrategyResult}
    (hstrategy : self.strategy.handleMessage provider db message = some (strategy, .ok result)) :
    SyncDoneOrder provider db (settle (flippyFlaggy { self with strategy := strategy } result).1)
      (emitted ++ (flippyFlaggy { self with strategy := strategy } result).2.messages) := by
  obtain ⟨remoteLogHeights, responses, -, hreceived, rfl, hdone, hresponses, hmessages⟩ :=
    LogHeightStrategy.handleMessage_ok hstrategy
  rw [flippyFlaggy_fst, flippyFlaggy_messages, hmessages, hdone]
  refine ⟨?_, by simp, fun _ => by simp⟩
  cases hlocal : self.isLocalDone with
  | true =>
    -- The `Have` and the entries went out with the `SyncDone`, or there are none to send.
    obtain ⟨hsent, hempty⟩ := h.after hlocal
    have hheights : LogHeightStrategy.localLogHeights db
        (self.strategy.includedDocumentIds provider db) = [] := by simpa [hreceived] using hempty
    rw [LogHeightStrategy.entryResponses_of_localLogHeights_nil hheights, Option.some.injEq] at hresponses
    subst hresponses
    simpa [hsent] using h.last
  | false =>
    have hbefore := h.before hlocal
    simp only [Bool.true_and, Bool.not_false, if_true, ← List.append_assoc]
    refine syncDoneLast_append_syncDone ?_ self.isLocalLiveMode
    intro message hmem
    rcases List.mem_append.mp hmem with hmem | hmem
    · rcases List.mem_append.mp hmem with hmem | hmem
      · exact hbefore message hmem
      · split at hmem <;> simp_all [LogHeightStrategy.localHave]
    · obtain ⟨_, _, rfl⟩ := LogHeightStrategy.mem_entryResponses hresponses hmem
      rfl

/-- With one store for every call, each call keeps `SyncDone` last. -/
theorem syncDoneOrder_step {provider : SchemaProvider} {db : Db}
    {before after : Session × List Message} {event : SessionEvent} (hdb : event.db = db)
    (h : SyncDoneOrder provider db before.1 before.2) (hstep : Step provider before event after) :
    SyncDoneOrder provider db after.1 after.2 := by
  cases hstep with
  | @initialMessages self store fresh =>
    obtain rfl : store = db := hdb
    exact syncDoneOrder_initialMessages fresh provider store
  | @handleMessage self next emitted store message out handled =>
    obtain rfl : store = db := hdb
    rcases handleMessage_cases handled with ⟨liveMode, -, rfl, rfl⟩ |
      ⟨strategy, err, hstrategy, rfl, rfl⟩ | ⟨strategy, result, hstrategy, rfl, rfl⟩
    · exact ⟨by simpa [replies] using h.last, by simpa [replies] using h.before,
        by simpa using h.after⟩
    · rw [LogHeightStrategy.handleMessage_error hstrategy]
      refine ⟨by simpa [replies] using h.last, by simpa [replies] using h.before, fun hdone => ?_⟩
      obtain ⟨-, hempty⟩ := h.after hdone
      exact ⟨rfl, by simpa using hempty⟩
    · simpa [replies] using syncDoneOrder_ok h hstrategy

/-- When no other session changes the store during the run, nothing follows the `SyncDone`. -/
theorem one_store_runs_send_syncDone_last (provider : SchemaProvider) (db : Db) (id : SessionId)
    (targetSet : SchemaIdSet) (isLocal liveMode : Bool) {events : List SessionEvent}
    {session : Session × List Message}
    (run : Run (Step provider) (Session.new id targetSet isLocal liveMode, []) events session)
    (hdb : ∀ event ∈ events, event.db = db) : SyncDoneLast session.2 :=
  (run.preserved_by (fun session => SyncDoneOrder provider db session.1 session.2)
    (fun event => event.db = db) (fun _ _ _ hevent h hstep => syncDoneOrder_step hevent h hstep)
    hdb (syncDoneOrder_new provider db id targetSet isLocal liveMode)).last

end Session

/-- A store holding one document of `schema_definition_v1`: one log of one entry. -/
def grownStore : Db :=
  { Db.empty with
    entries := [⟨⟨"a"⟩, "e", "d", 0, some "op", 1⟩]
    logs := [⟨⟨"a"⟩, ⟨"d"⟩, 0, .schemaDefinition 1⟩]
    operations := [⟨⟨"a"⟩, ⟨"d"⟩, ⟨"d"⟩, .create, .schemaDefinition 1, none, some 0⟩]
    documents := [⟨⟨"d"⟩, ⟨[⟨"d"⟩]⟩, .schemaDefinition 1, false⟩] }

/-- An inbound session opened on an empty store sends `Have []` and its `SyncDone` at once.
Another session then ingests an entry, and the remote's `Have` is answered with it: the
`Entry` follows the `SyncDone`. -/
theorem entry_follows_syncDone_when_store_grows :
    ∃ session, Run (Session.Step ⟨[]⟩) (Session.new 0 ⟨[.schemaDefinition 1]⟩ false false, [])
      [.initialMessages Db.empty, .handleMessage grownStore (.have [])] session ∧
      session.2 = [.have [], .syncDone false, .entry ⟨"e"⟩ (some ⟨"op"⟩)] ∧
      ¬ SyncDoneLast session.2 := by
  refine ⟨_, Run.cons (Session.Step.initialMessages rfl) (Run.single
    (Session.Step.handleMessage (Option.eq_some_of_isSome (by decide +kernel)))), by decide +kernel, ?_⟩
  decide +kernel

/-- The same session, its store grown, then finished by the remote's `SyncDone`: one `Have`, one
`SyncDone`, and `Done` with both flags set. -/
theorem grown_session_keeps_discipline :
    ∃ session, Run (Session.Step ⟨[]⟩) (Session.new 0 ⟨[.schemaDefinition 1]⟩ false false, [])
      [.initialMessages Db.empty, .handleMessage grownStore (.have []),
        .handleMessage grownStore (.syncDone false)] session ∧
      session.2 = [.have [], .syncDone false, .entry ⟨"e"⟩ (some ⟨"op"⟩)] ∧ session.1.state = .done ∧
      session.2.countP Message.isHave ≤ 1 ∧ session.2.countP Message.isSyncDone ≤ 1 ∧
      (session.1.state = .done ↔ session.1.isLocalDone ∧ session.1.isRemoteDone) := by
  have run : Run (Session.Step ⟨[]⟩) (Session.new 0 ⟨[.schemaDefinition 1]⟩ false false, [])
      [.initialMessages Db.empty, .handleMessage grownStore (.have []),
        .handleMessage grownStore (.syncDone false)] _ :=
    Run.cons (Session.Step.initialMessages rfl)
      (Run.cons (Session.Step.handleMessage (Option.eq_some_of_isSome (by decide +kernel)))
      (Run.single (Session.Step.handleMessage (Option.eq_some_of_isSome (by decide +kernel)))))
  exact ⟨_, run, by decide +kernel, by decide +kernel,
    Session.runs_keep_discipline ⟨[]⟩ 0 ⟨[.schemaDefinition 1]⟩ false false run⟩

end Aquadoggo.Replication
