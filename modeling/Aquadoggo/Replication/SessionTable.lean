import Aquadoggo.Replication.Manager
import Aquadoggo.Library.Transition

/-! The session table of one manager over whole runs of its public calls. Outbound
calls alone keep ids increasing along each peer's vector, so `last().id + 1` is fresh;
an inbound `SyncRequest` brings an id chosen by the remote and breaks that order. -/
namespace Aquadoggo.Replication

open Library

inductive ManagerCall (P : Type) where
  | initiateSession (remotePeer : P) (targetSet : SchemaIdSet) (mode : Mode)
  | handleMessage (remotePeer : P) (message : SyncMessage)
  | removeSession (remotePeer : P) (sessionId : SessionId)
deriving DecidableEq, Repr

def ManagerCall.isOutbound {P : Type} : ManagerCall P → Bool
  | .handleMessage .. => false
  | _ => true

namespace SyncManager

variable {P : Type} [DecidableEq P] [LT P] [DecidableRel (α := P) (· < ·)] [ToString P]

/-- The manager after one call of its public API; `none` when the call panics. -/
def call (self : SyncManager P) : ManagerCall P → Option (SyncManager P)
  | .initiateSession remotePeer targetSet mode => some (self.initiateSession remotePeer targetSet mode).1
  | .handleMessage remotePeer message => (self.handleMessage remotePeer message).map (·.1)
  | .removeSession remotePeer sessionId => some (self.removeSession remotePeer sessionId)

def Step (self : SyncManager P) (call : ManagerCall P) (next : SyncManager P) : Prop :=
  self.call call = some next

/-- Pairwise distinct session ids and pairwise distinct target sets among the sessions held
for one peer. -/
def SessionsDistinct (self : SyncManager P) (remotePeer : P) : Prop :=
  ((self.getSessions remotePeer).map (·.id)).Nodup ∧
    ((self.getSessions remotePeer).map (·.targetSet)).Nodup

end SyncManager

/-- The order outbound calls keep: ids strictly increase along the vector, and no target set
occurs twice. -/
def Ordered (sessions : List Session) : Prop :=
  sessions.Pairwise (fun a b => a.id < b.id) ∧ (sessions.map (·.targetSet)).Nodup

theorem Ordered.ids_nodup {sessions : List Session} (h : Ordered sessions) :
    (sessions.map (·.id)).Nodup := by
  rw [List.Nodup, List.pairwise_map]
  exact h.1.imp Nat.ne_of_lt

theorem id_le_of_getLast? {sessions : List Session} {last : Session}
    (sorted : sessions.Pairwise (fun a b => a.id < b.id)) (hlast : sessions.getLast? = some last) :
    ∀ session ∈ sessions, session.id ≤ last.id := by
  obtain ⟨init, rfl⟩ := List.getLast?_eq_some_iff.mp hlast
  intro session hmem
  rw [List.pairwise_append] at sorted
  rcases List.mem_append.mp hmem with hinit | hlast
  · exact Nat.le_of_lt (sorted.2.2 session hinit last (by simp))
  · simp only [List.mem_singleton] at hlast
    subst hlast
    exact Nat.le_refl _

theorem lt_nextSessionId {sessions : List Session}
    (sorted : sessions.Pairwise (fun a b => a.id < b.id)) :
    ∀ session ∈ sessions, session.id < SyncManager.nextSessionId sessions := by
  intro session hmem
  unfold SyncManager.nextSessionId
  cases hlast : sessions.getLast? with
  | none => simp_all
  | some last => exact Nat.lt_succ_of_le (id_le_of_getLast? sorted hlast session hmem)

theorem Ordered.push_new {sessions : List Session} {targetSet : SchemaIdSet} (h : Ordered sessions)
    (fresh : ∀ session ∈ sessions, session.targetSet ≠ targetSet) (isLocal liveMode : Bool) :
    Ordered (sessions ++
      [Session.new (SyncManager.nextSessionId sessions) targetSet isLocal liveMode]) := by
  constructor
  · rw [List.pairwise_append]
    refine ⟨h.1, by simp, fun a ha b hb => ?_⟩
    simp only [List.mem_singleton] at hb
    subst hb
    exact lt_nextSessionId h.1 a ha
  · rw [List.map_append, List.nodup_append]
    refine ⟨h.2, by simp, fun a ha b hb => ?_⟩
    obtain ⟨session, hmem, rfl⟩ := List.mem_map.mp ha
    simp only [List.map_cons, List.map_nil, List.mem_singleton] at hb
    subst hb
    exact fresh session hmem

theorem Ordered.eraseP {sessions : List Session} (h : Ordered sessions) (p : Session → Bool) :
    Ordered (sessions.eraseP p) :=
  ⟨h.1.sublist (List.eraseP_sublist), h.2.sublist ((List.eraseP_sublist).map _)⟩

namespace SyncManager

variable {P : Type} [DecidableEq P]

/-- Every peer's sessions are `Ordered`. -/
def TableOrdered (self : SyncManager P) : Prop := ∀ remotePeer, Ordered (self.getSessions remotePeer)

theorem tableOrdered_new (store : Db) (ingest : SyncIngest) (localPeer : P) :
    (SyncManager.new store ingest localPeer).TableOrdered := by
  intro remotePeer
  simp [SyncManager.new, getSessions, Ordered]

theorem tableOrdered_initiateSession {self : SyncManager P} (h : self.TableOrdered)
    (remotePeer : P) (targetSet : SchemaIdSet) (mode : Mode) :
    (self.initiateSession remotePeer targetSet mode).1.TableOrdered := by
  rcases initiateSession_cases self remotePeer targetSet mode with hsame | ⟨fresh, hnext⟩
  · rw [hsame]
    exact h
  · intro peer
    rw [hnext, insertSession, getSessions_pushSession]
    split
    · exact (h remotePeer).push_new fresh true supportLiveMode
    · exact h peer

theorem tableOrdered_removeSession {self : SyncManager P} (h : self.TableOrdered)
    (remotePeer : P) (sessionId : SessionId) :
    (self.removeSession remotePeer sessionId).TableOrdered := by
  intro peer
  rw [getSessions_removeSession]
  split
  · exact (h remotePeer).eraseP _
  · exact h peer

variable [LT P] [DecidableRel (α := P) (· < ·)] [ToString P]

theorem tableOrdered_step {self next : SyncManager P} {call : ManagerCall P}
    (houtbound : call.isOutbound) (h : self.TableOrdered) (hstep : self.Step call next) :
    next.TableOrdered := by
  cases call with
  | initiateSession remotePeer targetSet mode =>
    obtain rfl := Option.some.inj hstep
    exact tableOrdered_initiateSession h remotePeer targetSet mode
  | handleMessage => simp [ManagerCall.isOutbound] at houtbound
  | removeSession remotePeer sessionId =>
    obtain rfl := Option.some.inj hstep
    exact tableOrdered_removeSession h remotePeer sessionId

/-- A manager that only opens and closes its own sessions keeps each peer's sessions in
increasing id order, so the next session id is above every id held; and it never holds two
sessions with one id or one target set for a peer. -/
theorem outbound_runs_keep_sessions_distinct (store : Db) (ingest : SyncIngest) (localPeer : P)
    {calls : List (ManagerCall P)} {self : SyncManager P}
    (run : Run Step (SyncManager.new store ingest localPeer) calls self)
    (houtbound : ∀ call ∈ calls, call.isOutbound) (remotePeer : P) :
    Ordered (self.getSessions remotePeer) ∧
      (∀ session ∈ self.getSessions remotePeer,
        session.id < nextSessionId (self.getSessions remotePeer)) ∧
      self.SessionsDistinct remotePeer := by
  have hordered : self.TableOrdered :=
    run.preserved_by TableOrdered (fun call => call.isOutbound)
      (fun _ _ _ hcall h hstep => tableOrdered_step hcall h hstep) houtbound
      (tableOrdered_new store ingest localPeer)
  have hpeer := hordered remotePeer
  exact ⟨hpeer, lt_nextSessionId hpeer.1, hpeer.ids_nodup, hpeer.2⟩

end SyncManager

/-- A node without schemas whose p2panda calls decode nothing: enough to replay requests. -/
def bareIngest : SyncIngest :=
  ⟨⟨[]⟩, false, [], ⟨EncodedEntry.bytes, fun _ => none, fun db _ _ _ => .ok db⟩⟩

/-- Two sessions opened, the first closed and a third opened: the third gets an id above the
last, and the table stays distinct. -/
theorem reopened_sessions_distinct :
    ∃ self, Run SyncManager.Step (SyncManager.new Db.empty bareIngest (0 : Nat))
      [.initiateSession 1 ⟨[.blob 1]⟩ .logHeight, .initiateSession 1 ⟨[.blobPiece 1]⟩ .logHeight,
        .removeSession 1 0, .initiateSession 1 ⟨[.schemaDefinition 1]⟩ .logHeight] self ∧
      (self.getSessions 1).map (·.id) = [1, 2] ∧ Ordered (self.getSessions 1) ∧
        self.SessionsDistinct 1 := by
  have run : Run SyncManager.Step (SyncManager.new Db.empty bareIngest (0 : Nat))
      [.initiateSession 1 ⟨[.blob 1]⟩ .logHeight, .initiateSession 1 ⟨[.blobPiece 1]⟩ .logHeight,
        .removeSession 1 0, .initiateSession 1 ⟨[.schemaDefinition 1]⟩ .logHeight] _ :=
    Run.cons rfl (Run.cons rfl (Run.cons rfl (Run.single rfl)))
  obtain ⟨hordered, -, hdistinct⟩ :=
    SyncManager.outbound_runs_keep_sessions_distinct Db.empty bareIngest 0 run (by decide) 1
  exact ⟨_, run, by decide, hordered, hdistinct⟩

/-- Two inbound requests with ids 1 and 0, then one outbound request: the new session gets id
`0 + 1` from the last session, the id of the first inbound session. -/
theorem inbound_requests_make_initiate_reuse_session_id :
    ∃ self, Run SyncManager.Step (SyncManager.new Db.empty bareIngest (0 : Nat))
      [.handleMessage 1 ⟨1, .syncRequest .logHeight ⟨[.blob 1]⟩⟩,
        .handleMessage 1 ⟨0, .syncRequest .logHeight ⟨[.blobPiece 1]⟩⟩,
        .initiateSession 1 ⟨[.schemaDefinition 1]⟩ .logHeight] self ∧
      (self.getSessions 1).map (·.id) = [1, 0, 1] ∧ ¬ self.SessionsDistinct 1 := by
  refine ⟨_, Run.cons rfl (Run.cons rfl (Run.single rfl)), by decide, ?_⟩
  unfold SyncManager.SessionsDistinct
  decide

end Aquadoggo.Replication
