import Aquadoggo.Replication.SessionTable

/-! Two nodes replicating with each other over two reliable FIFO channels. Either node
may open a session at any time, as `update_sessions` does, and the channels deliver in
any interleaving. -/
namespace Aquadoggo.Replication

open Library

/-- `MAX_SESSIONS_PER_PEER` of the replication service. -/
def maxSessionsPerPeer : Nat := 3

structure TwoPeers (P : Type) where
  peerA : SyncManager P
  peerB : SyncManager P
  /-- Messages sent by `peerB`, not yet handled by `peerA`. -/
  toA : List SyncMessage
  /-- Messages sent by `peerA`, not yet handled by `peerB`. -/
  toB : List SyncMessage

inductive Side where
  | a | b
deriving DecidableEq, Repr

inductive NetworkEvent where
  | initiate (side : Side) (targetSet : SchemaIdSet)
  | deliver (side : Side)
deriving DecidableEq, Repr

namespace TwoPeers

variable {P : Type} [DecidableEq P] [LT P] [DecidableRel (α := P) (· < ·)] [ToString P]

def manager (net : TwoPeers P) : Side → SyncManager P
  | .a => net.peerA
  | .b => net.peerB

def remote (net : TwoPeers P) : Side → P
  | .a => net.peerB.localPeer
  | .b => net.peerA.localPeer

def inbox (net : TwoPeers P) : Side → List SyncMessage
  | .a => net.toA
  | .b => net.toB

/-- Replace one side's manager and inbox, and send its output to the other side. -/
def update (net : TwoPeers P) (side : Side) (manager : SyncManager P) (inbox : List SyncMessage)
    (sent : List SyncMessage) : TwoPeers P :=
  match side with
  | .a => ⟨manager, net.peerB, inbox, net.toB ++ sent⟩
  | .b => ⟨net.peerA, manager, net.toA ++ sent, inbox⟩

/-- `update_sessions` opens a session when the target set is non-empty, no active session
has it, and fewer than `MAX_SESSIONS_PER_PEER` sessions are active. -/
def mayInitiate (net : TwoPeers P) (side : Side) (targetSet : SchemaIdSet) : Prop :=
  let active := ((net.manager side).getSessions (net.remote side)).filter (!·.isDone)
  !targetSet.isEmpty ∧ active.length < maxSessionsPerPeer ∧
    ∀ session ∈ active, session.targetSet ≠ targetSet

instance (net : TwoPeers P) (side : Side) (targetSet : SchemaIdSet) :
    Decidable (net.mayInitiate side targetSet) :=
  inferInstanceAs (Decidable (_ ∧ _ ∧ _))

/-- One event of the network: a node opens a session, or handles the oldest message sent to
it. A handled message that fails sends nothing back; a panic stops the run. -/
inductive Step : TwoPeers P → NetworkEvent → TwoPeers P → Prop where
  | initiate {net : TwoPeers P} {side : Side} {targetSet : SchemaIdSet} {manager : SyncManager P}
      {result : Except ReplicationError (List SyncMessage)}
      (allowed : net.mayInitiate side targetSet)
      (opened : (net.manager side).initiateSession (net.remote side) targetSet .logHeight =
        (manager, result)) :
      Step net (.initiate side targetSet)
        (net.update side manager (net.inbox side) (match result with | .ok sent => sent | .error _ => []))
  | deliver {net : TwoPeers P} {side : Side} {message : SyncMessage} {rest : List SyncMessage}
      {manager : SyncManager P} {result : Except ReplicationError SyncResult}
      (head : net.inbox side = message :: rest)
      (handled : (net.manager side).handleMessage (net.remote side) message = some (manager, result)) :
      Step net (.deliver side)
        (net.update side manager rest (match result with | .ok r => r.messages | .error _ => []))

/-- Both nodes fresh, with empty stores and no message in flight. -/
def init (ingest : SyncIngest) (peerA peerB : P) : TwoPeers P :=
  ⟨SyncManager.new Db.empty ingest peerA, SyncManager.new Db.empty ingest peerB, [], []⟩

/-- Whenever both nodes hold a session under one id, the two sessions replicate one target set. -/
def SessionsAgree (net : TwoPeers P) : Prop :=
  ∀ sessionA ∈ net.peerA.getSessions net.peerB.localPeer,
    ∀ sessionB ∈ net.peerB.getSessions net.peerA.localPeer,
      sessionA.id = sessionB.id → sessionA.targetSet = sessionB.targetSet

/-- Node `0` opens sessions for two target sets and node `1` one for a third, all before any
request arrives. Node `0` has the smaller id, so it drops its session `0` for the request of
node `1` and re-initiates that target set under `last().id + 1 = 1`, an id its second session
already has. Node `1` accepts that second session's request as its session `1`: the two nodes
now hold session `1` for different target sets. -/
theorem crossing_requests_disagree_on_session_target_set :
    ∃ net, Run Step (init bareIngest (0 : Nat) 1)
      [.initiate .a ⟨[.blob 1]⟩, .initiate .a ⟨[.blobPiece 1]⟩, .initiate .b ⟨[.schemaDefinition 1]⟩,
        .deliver .a, .deliver .b, .deliver .b] net ∧
      (⟨1, .pending, true, LogHeightStrategy.new ⟨[.blob 1]⟩, false, false, false, false⟩ : Session) ∈
        net.peerA.getSessions 1 ∧
      (⟨1, .pending, false, ⟨⟨[.blobPiece 1]⟩, false, true⟩, true, false, false, false⟩ : Session) ∈
        net.peerB.getSessions 0 ∧
      ¬ net.SessionsAgree := by
  refine ⟨_, Run.cons (Step.initiate (by decide) rfl) (Run.cons (Step.initiate (by decide) rfl)
    (Run.cons (Step.initiate (by decide) rfl) (Run.cons (Step.deliver rfl rfl)
    (Run.cons (Step.deliver rfl rfl) (Run.single (Step.deliver rfl rfl)))))), by decide, by decide, ?_⟩
  unfold SessionsAgree
  decide

end TwoPeers

end Aquadoggo.Replication
