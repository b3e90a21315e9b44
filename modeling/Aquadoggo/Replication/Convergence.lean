import Aquadoggo.Replication.TwoPeers
import Aquadoggo.Replication.Handling
import Aquadoggo.Replication.Coverage

/-! A log-height session between two nodes that already hold entries: what a run looks like
when every call it makes returns `Ok`, and the state it ends in once both sides are done. The
strategy compares log heights only, so two nodes that hold different entries at one sequence
number of one log see nothing to send. -/
namespace Aquadoggo.Replication

open Library

def Side.other : Side → Side
  | .a => .b
  | .b => .a

/-- The same event with the two nodes' roles exchanged. -/
def NetworkEvent.swap : NetworkEvent → NetworkEvent
  | .initiate side targetSet => .initiate side.other targetSet
  | .deliver side => .deliver side.other

namespace TwoPeers

variable {P : Type}

/-- The network with the two nodes' roles exchanged. -/
def swap (net : TwoPeers P) : TwoPeers P := ⟨net.peerB, net.peerA, net.toB, net.toA⟩

@[simp] theorem manager_swap (net : TwoPeers P) (side : Side) :
    net.swap.manager side.other = net.manager side := by
  cases side <;> rfl

@[simp] theorem remote_swap (net : TwoPeers P) (side : Side) :
    net.swap.remote side.other = net.remote side := by
  cases side <;> rfl

@[simp] theorem inbox_swap (net : TwoPeers P) (side : Side) :
    net.swap.inbox side.other = net.inbox side := by
  cases side <;> rfl

theorem update_swap (net : TwoPeers P) (side : Side) (manager : SyncManager P)
    (inbox sent : List SyncMessage) :
    (net.update side manager inbox sent).swap = net.swap.update side.other manager inbox sent := by
  cases side <;> rfl

theorem mayInitiate_swap [DecidableEq P] {net : TwoPeers P} {side : Side} {targetSet : SchemaIdSet} :
    net.swap.mayInitiate side.other targetSet ↔ net.mayInitiate side targetSet := by
  cases side <;> rfl

variable [DecidableEq P] [LT P] [DecidableRel (α := P) (· < ·)] [ToString P]

/-- Two nodes with their stores, no session yet and nothing in flight. -/
def start (ingest : SyncIngest) (peerA peerB : P) (storeA storeB : Db) : TwoPeers P :=
  ⟨SyncManager.new storeA ingest peerA, SyncManager.new storeB ingest peerB, [], []⟩

/-- An event whose call returned `Ok`: a session opened, or a message handled without error. -/
inductive OkStep : TwoPeers P → NetworkEvent → TwoPeers P → Prop where
  | initiate {net : TwoPeers P} {side : Side} {targetSet : SchemaIdSet} {manager : SyncManager P}
      {sent : List SyncMessage}
      (allowed : net.mayInitiate side targetSet)
      (opened : (net.manager side).initiateSession (net.remote side) targetSet .logHeight =
        (manager, .ok sent)) :
      OkStep net (.initiate side targetSet) (net.update side manager (net.inbox side) sent)
  | deliver {net : TwoPeers P} {side : Side} {message : SyncMessage} {rest : List SyncMessage}
      {manager : SyncManager P} {result : SyncResult}
      (head : net.inbox side = message :: rest)
      (handled : (net.manager side).handleMessage (net.remote side) message =
        some (manager, .ok result)) :
      OkStep net (.deliver side) (net.update side manager rest result.messages)

/-- A run without errors is a run of the network. -/
theorem OkStep.step {net next : TwoPeers P} {event : NetworkEvent} (h : OkStep net event next) :
    Step net event next := by
  cases h with
  | initiate allowed opened => exact Step.initiate allowed opened
  | deliver head handled => exact Step.deliver head handled

/-- The network delivers the oldest message sent to `side`, and the call's result. -/
def deliver (net : TwoPeers P) (side : Side) :
    Option (TwoPeers P × Except ReplicationError SyncResult) :=
  match net.inbox side with
  | [] => none
  | message :: rest => ((net.manager side).handleMessage (net.remote side) message).map
      fun (manager, result) => (net.update side manager rest (match result with
        | .ok r => r.messages
        | .error _ => []), result)

/-- Deliver to the sides in turn while every call returns `Ok`. -/
def deliverAll (net : TwoPeers P) : List Side → Option (TwoPeers P)
  | [] => some net
  | side :: sides =>
    match net.deliver side with
    | some (next, .ok _) => next.deliverAll sides
    | _ => none

theorem okStep_of_deliver {net next : TwoPeers P} {side : Side} {result : SyncResult}
    (h : net.deliver side = some (next, .ok result)) : OkStep net (.deliver side) next := by
  unfold deliver at h
  split at h
  · cases h
  · next message rest hinbox =>
    obtain ⟨⟨manager, result'⟩, handled, hnext⟩ := Option.map_eq_some_iff.mp h
    cases hnext
    exact OkStep.deliver hinbox handled

/-- A delivery schedule that ends without an error is a run without errors. -/
theorem run_of_deliverAll {net last : TwoPeers P} {sides : List Side}
    (h : net.deliverAll sides = some last) : Run OkStep net (sides.map .deliver) last := by
  induction sides generalizing net with
  | nil =>
    cases h
    exact Run.nil _
  | cons side sides ih =>
    unfold deliverAll at h
    split at h
    · next next result hdeliver => exact Run.cons (okStep_of_deliver hdeliver) (ih h)
    · cases h

/-- Both sides are done: a session leaves the table once both of its sides are done, and no
message is in flight. -/
def Settled (net : TwoPeers P) : Prop :=
  net.toA = [] ∧ net.toB = [] ∧ net.peerA.getSessions net.peerB.localPeer = [] ∧
    net.peerB.getSessions net.peerA.localPeer = []

/-! ### FIFO channels -/

/-- Each node has handled, in order, what was in flight to it at `start` and then what the
other node answered, up to what is still in flight to it; no answer is a request. -/
def Fifo (start net : TwoPeers P) : Prop :=
  ∃ handledA handledB answeredA answeredB,
    Run (SyncManager.Handled start.peerB.localPeer) (start.peerA, []) handledA
      (net.peerA, answeredA) ∧
    Run (SyncManager.Handled start.peerA.localPeer) (start.peerB, []) handledB
      (net.peerB, answeredB) ∧
    handledA ++ net.toA = start.toA ++ answeredB ∧ handledB ++ net.toB = start.toB ++ answeredA ∧
    (∀ answer ∈ answeredA, answer.message.isSyncRequest = false) ∧
    ∀ answer ∈ answeredB, answer.message.isSyncRequest = false

theorem fifo_start (start : TwoPeers P) : Fifo start start :=
  ⟨[], [], [], [], Run.nil _, Run.nil _, by simp, by simp, by simp, by simp⟩

/-- What a node handled or has in flight to it was in flight at `start` or is an answer. -/
theorem no_request_of_channel {handled inbox initial answered : List SyncMessage}
    (hinitial : ∀ message ∈ initial, message.message.isSyncRequest = false)
    (hanswered : ∀ message ∈ answered, message.message.isSyncRequest = false)
    (h : handled ++ inbox = initial ++ answered) :
    ∀ message ∈ handled ++ inbox, message.message.isSyncRequest = false := by
  rw [h]
  intro message hmem
  rcases List.mem_append.mp hmem with hstart | hanswer
  · exact hinitial message hstart
  · exact hanswered message hanswer

section Fifo

variable {start : TwoPeers P} (hlawfulA : start.peerA.ingest.p2panda.Lawful)
  (hlawfulB : start.peerB.ingest.p2panda.Lawful)
  (hstartA : ∀ message ∈ start.toA, message.message.isSyncRequest = false)
  (hstartB : ∀ message ∈ start.toB, message.message.isSyncRequest = false)
include hlawfulA hlawfulB hstartA hstartB

/-- Delivering the oldest message to a node extends what it handled by that message and what
it answered by its answer, which is in flight to the other node from then on. -/
theorem fifo_step {net next : TwoPeers P} {side : Side} (h : Fifo start net)
    (hstep : OkStep net (.deliver side) next) : Fifo start next := by
  obtain ⟨handledA, handledB, answeredA, answeredB, runA, runB, hA, hB, hanswersA, hanswersB⟩ := h
  have hrequestsA := no_request_of_channel hstartA hanswersB hA
  have hrequestsB := no_request_of_channel hstartB hanswersA hB
  have keepsA := SyncManager.handled_keeps hlawfulA runA
    fun message hmem => hrequestsA message (List.mem_append_left _ hmem)
  have keepsB := SyncManager.handled_keeps hlawfulB runB
    fun message hmem => hrequestsB message (List.mem_append_left _ hmem)
  cases hstep with
  | @deliver _ message rest manager result head handled =>
    cases side with
    | a =>
      simp only [inbox] at head
      have hrequest := hrequestsA message (by simp [head])
      have hanswers := (SyncManager.handleMessage_keeps (keepsA.lawful hlawfulA) hrequest handled).2.2.2.2
      refine ⟨handledA ++ [message], handledB, answeredA ++ result.messages, answeredB,
        runA.snoc (.ok (by rw [← keepsB.localPeer]; exact handled)), runB, ?_, ?_, ?_, hanswersB⟩
      · rw [update, List.append_assoc, List.singleton_append, ← head, hA]
      · rw [update, ← List.append_assoc, hB, List.append_assoc]
      · intro answer hmem
        rcases List.mem_append.mp hmem with hold | hnew
        · exact hanswersA answer hold
        · exact hanswers answer hnew
    | b =>
      simp only [inbox] at head
      have hrequest := hrequestsB message (by simp [head])
      have hanswers := (SyncManager.handleMessage_keeps (keepsB.lawful hlawfulB) hrequest handled).2.2.2.2
      refine ⟨handledA, handledB ++ [message], answeredA, answeredB ++ result.messages,
        runA, runB.snoc (.ok (by rw [← keepsA.localPeer]; exact handled)), ?_, ?_, hanswersA, ?_⟩
      · rw [update, ← List.append_assoc, hA, List.append_assoc]
      · rw [update, List.append_assoc, List.singleton_append, ← head, hB]
      · intro answer hmem
        rcases List.mem_append.mp hmem with hold | hnew
        · exact hanswersB answer hold
        · exact hanswers answer hnew

/-- Over a run of deliveries, the channels stay FIFO. -/
theorem fifo_run {net : TwoPeers P} {sides : List Side}
    (run : Run OkStep start (sides.map .deliver) net) : Fifo start net := by
  refine run.preserved_by (Fifo start) (fun event => ∃ side, event = .deliver side) ?_ ?_
    (fifo_start start)
  · rintro net event next ⟨side, rfl⟩ h hstep
    exact fifo_step hlawfulA hlawfulB hstartA hstartB h hstep
  · intro event hevent
    obtain ⟨side, -, rfl⟩ := List.mem_map.mp hevent
    exact ⟨side, rfl⟩

end Fifo

/-- Exchanging the roles of the nodes maps runs to runs. -/
theorem OkStep.swap {net next : TwoPeers P} {event : NetworkEvent} (h : OkStep net event next) :
    OkStep net.swap event.swap next.swap := by
  cases h with
  | initiate allowed opened =>
    rw [update_swap, ← inbox_swap]
    exact .initiate (mayInitiate_swap.mpr allowed) (by rw [manager_swap, remote_swap]; exact opened)
  | deliver head handled =>
    rw [update_swap]
    exact .deliver (by rw [inbox_swap]; exact head) (by rw [manager_swap, remote_swap]; exact handled)

theorem run_swap {net next : TwoPeers P} {events : List NetworkEvent}
    (run : Run OkStep net events next) : Run OkStep net.swap (events.map NetworkEvent.swap) next.swap := by
  induction run with
  | nil => exact Run.nil _
  | snoc _ hstep ih =>
    rw [List.map_append]
    exact ih.snoc hstep.swap

omit [LT P] [DecidableRel (α := P) (· < ·)] [ToString P] in
theorem Settled.swap {net : TwoPeers P} (h : net.Settled) : net.swap.Settled :=
  ⟨h.2.1, h.1, h.2.2.2, h.2.2.1⟩

end TwoPeers

/-! ### One session between two nodes -/

section Exchange

variable {P : Type} [DecidableEq P] [LT P] [DecidableRel (α := P) (· < ·)] [ToString P]

open SyncManager

/-- A log-height session between an initiator `X` and a responder `Y` without an earlier session
with each other, once each node has handled everything the other sent: each node holds the
entries the other answered its `Have` with, and keeps the entries it held. -/
theorem exchange_holds_entries {X Y X' Y' Y₁ : SyncManager P} {x y : P} {sessionId : SessionId}
    {targetSet : SchemaIdSet} {request : SyncResult} {answeredX answeredY : List SyncMessage}
    (hlawfulX : X.ingest.p2panda.Lawful) (hlawfulY : Y.ingest.p2panda.Lawful)
    (hknownX : ∀ schemaId ∈ targetSet.ids, (X.ingest.schemaProvider.get schemaId).isSome)
    (hknownY : ∀ schemaId ∈ targetSet.ids, (Y.ingest.schemaProvider.get schemaId).isSome)
    (hfreshX : X.getSessions y = []) (hfreshY : Y.getSessions x = [])
    (hrequest : Y.handleMessage x ⟨sessionId, .syncRequest .logHeight targetSet⟩ =
      some (Y₁, .ok request))
    (runX : Run (Handled y) (X.insertSession y sessionId targetSet true, [])
      (request.messages ++ answeredY) (X', answeredX))
    (runY : Run (Handled x) (Y₁, []) answeredX (Y', answeredY))
    (hanswersX : ∀ answer ∈ answeredX, answer.message.isSyncRequest = false)
    (hanswersY : ∀ answer ∈ answeredY, answer.message.isSyncRequest = false) :
    (X.store.entries ⊆ X'.store.entries ∧ ∃ responses,
      (LogHeightStrategy.new targetSet).entryResponses Y.ingest.schemaProvider Y.store
        (LogHeightStrategy.localLogHeights X.store
          ((LogHeightStrategy.new targetSet).includedDocumentIds X.ingest.schemaProvider X.store)) =
        some responses ∧ HoldsEntries X'.store X.ingest.p2panda.entryHash responses) ∧
    (Y.store.entries ⊆ Y'.store.entries ∧ ∃ responses,
      (LogHeightStrategy.new targetSet).entryResponses X.ingest.schemaProvider X.store
        (LogHeightStrategy.localLogHeights Y.store
          ((LogHeightStrategy.new targetSet).includedDocumentIds Y.ingest.schemaProvider Y.store)) =
        some responses ∧ HoldsEntries Y'.store Y.ingest.p2panda.entryHash responses) := by
  obtain ⟨hstoreY, hingestY, -, sessionY, hsessionsY, hidY, hstrategyY, restY, hmessagesY, hrestY⟩ :=
    answers_request_fresh hfreshY hrequest
  -- The initiator's table holds the one local session it opened.
  have hsessionsX : (X.insertSession y sessionId targetSet true).getSessions y =
      [Session.new sessionId targetSet true supportLiveMode] := by
    rw [insertSession, getSessions_pushSession, if_pos rfl, hfreshX, List.nil_append]
  -- The initiator handles the `Have` of the responder first.
  rw [hmessagesY, List.cons_append] at runX
  obtain ⟨responsesX, hresponsesX, hprefixX⟩ := answers_first_have hsessionsX runX
  have hstoreX : (X.insertSession y sessionId targetSet true).store = X.store := pushSession_store ..
  have hingestX : (X.insertSession y sessionId targetSet true).ingest = X.ingest :=
    pushSession_ingest ..
  rw [hstoreX, hingestX] at hprefixX hresponsesX
  -- It answers with its `Have`, the entries the responder lacks and `SyncDone`.
  have hanswerX : toSyncMessages sessionId
      (.have (LogHeightStrategy.localLogHeights X.store
          ((LogHeightStrategy.new targetSet).includedDocumentIds X.ingest.schemaProvider X.store)) ::
        (responsesX ++ [.syncDone supportLiveMode])) <+: answeredX := hprefixX
  have hsentX : ∀ message ∈ responsesX, ⟨sessionId, message⟩ ∈ answeredX := fun message hmem =>
    hanswerX.subset (List.mem_map_of_mem (List.mem_cons_of_mem _ (List.mem_append_left _ hmem)))
  -- The responder handles that `Have` first, and answers with the entries the initiator lacks.
  obtain ⟨moreX, hmoreX⟩ := hanswerX
  obtain ⟨responsesY, hresponsesY, hprefixY⟩ :=
    answers_first_have hsessionsY (by rw [← hmoreX, ← hidY] at runY; exact runY)
  rw [hstoreY, hingestY, hidY] at hprefixY
  have htargetY : sessionY.strategy.targetSet = (LogHeightStrategy.new targetSet).targetSet := by
    rw [hstrategyY]
  rw [hstoreY, hingestY, LogHeightStrategy.entryResponses_congr htargetY] at hresponsesY
  have hsentY : ∀ message ∈ responsesY, ⟨sessionId, message⟩ ∈ answeredY := fun message hmem =>
    hprefixY.subset (List.mem_map_of_mem (List.mem_append_left _ (List.mem_append_right _ hmem)))
  -- Neither node handles a request, so each keeps its entries and stores the entries it handled.
  have hlawfulX₁ : (X.insertSession y sessionId targetSet true).ingest.p2panda.Lawful := by
    rw [hingestX]
    exact hlawfulX
  have hlawfulY₁ : Y₁.ingest.p2panda.Lawful := by
    rw [hingestY]
    exact hlawfulY
  have hknowsX : (X.insertSession y sessionId targetSet true).KnowsTargetSets y := by
    apply knowsTargetSets_of_getSessions hsessionsX
    rw [hingestX]
    exact hknownX
  have hknowsY : Y₁.KnowsTargetSets x := by
    apply knowsTargetSets_of_getSessions hsessionsY
    intro schemaId hschema
    rw [hingestY]
    exact hknownY schemaId (by rw [Session.targetSet, htargetY] at hschema; exact hschema)
  have hrequestsX : ∀ message ∈ ⟨sessionId, (LogHeightStrategy.new targetSet).localHave
      Y.ingest.schemaProvider Y.store⟩ :: (restY ++ answeredY), message.message.isSyncRequest = false := by
    intro message hmem
    rcases List.mem_cons.mp hmem with rfl | hmem
    · rfl
    · rcases List.mem_append.mp hmem with hrest | hanswer
      · exact hrestY message hrest
      · exact hanswersY message hanswer
  have hkeepsX := handled_keeps hlawfulX₁ runX hrequestsX
  have hkeepsY := handled_keeps hlawfulY₁ runY hanswersX
  have hheldX := handled_holds_entries hlawfulX₁ hknowsX runX hrequestsX
  have hheldY := handled_holds_entries hlawfulY₁ hknowsY runY hanswersX
  refine ⟨⟨hstoreX ▸ hkeepsX.entries, responsesY, hresponsesY, ?_⟩,
    ⟨hstoreY ▸ hkeepsY.entries, responsesX, hresponsesX, ?_⟩⟩
  · intro message hmem entry operation hentry
    rw [← hingestX]
    exact hheldX _ (List.mem_cons_of_mem _ (List.mem_append_right _ (hsentY message hmem))) entry
      operation hentry
  · intro message hmem entry operation hentry
    rw [← hingestY]
    exact hheldY _ (hsentX message hmem) entry operation hentry

/-- A node ready for a log-height session on `targetSet`: it makes the p2panda calls `p`, knows
every schema of the target set, holds a replicable store and has materialized every stored
operation. -/
structure SyncManager.ReadyFor (node : SyncManager P) (p : P2panda) (targetSet : SchemaIdSet) :
    Prop where
  p2panda : node.ingest.p2panda = p
  known : ∀ schemaId ∈ targetSet.ids, (node.ingest.schemaProvider.get schemaId).isSome
  replicable : node.store.Replicable p.entryHash
  materialized : ∀ op ∈ node.store.operations, op.sortedIndex.isSome

/-- The session node `A` opens: node `B` answers the request first, and from then on both
nodes answer session messages only, over FIFO channels. -/
theorem replicated_of_initiate_a {p : P2panda} (hlawful : p.Lawful) {start net : TwoPeers P}
    {targetSet : SchemaIdSet} {sides : List Side} (hA : start.peerA.ReadyFor p targetSet)
    (hB : start.peerB.ReadyFor p targetSet) (hfork : start.peerA.store.NoFork start.peerB.store)
    (hidle : start.Settled)
    (run : Run TwoPeers.OkStep start (.initiate .a targetSet :: sides.map .deliver) net)
    (hdone : net.Settled) :
    start.peerA.store.ReplicatedTo start.peerA.ingest.schemaProvider targetSet net.peerB.store ∧
      start.peerB.store.ReplicatedTo start.peerB.ingest.schemaProvider targetSet net.peerA.store := by
  obtain ⟨hidleA, hidleB, hfreshA, hfreshB⟩ := hidle
  obtain ⟨net₁, hinit, rest⟩ := run.cons_inv
  cases hinit with
  | initiate allowed opened =>
  obtain ⟨-, sessionId, rfl, rfl⟩ := SyncManager.initiateSession_ok opened
  cases sides with
  | nil =>
    -- The request is still in flight.
    obtain rfl := rest.nil_inv
    simp [TwoPeers.update, TwoPeers.Settled] at hdone
  | cons side sides =>
  obtain ⟨net₂, hdeliver, rest⟩ := rest.cons_inv
  cases hdeliver with
  | @deliver _ message inbox Y₁ request head handled =>
  cases side with
  | a => simp [TwoPeers.update, TwoPeers.inbox, hidleA] at head
  | b =>
  simp only [TwoPeers.update, TwoPeers.inbox, TwoPeers.manager, TwoPeers.remote, hidleB,
    List.nil_append, List.cons.injEq, SyncManager.insertSession, SyncManager.pushSession_localPeer]
    at head handled rest
  obtain ⟨rfl, rfl⟩ := head
  -- `B` opened its session for the request and answered with its `Have`.
  obtain ⟨-, hingestY, hpeerY, -, -, -, -, restY, hmessagesY, hrestY⟩ :=
    SyncManager.answers_request_fresh hfreshB handled
  have hlawfulA : start.peerA.ingest.p2panda.Lawful := by
    rw [hA.p2panda]
    exact hlawful
  have hlawfulB : start.peerB.ingest.p2panda.Lawful := by
    rw [hB.p2panda]
    exact hlawful
  -- From here on both nodes answer session messages only, over FIFO channels.
  have fifo : TwoPeers.Fifo _ net := TwoPeers.fifo_run ?_ ?_ ?_ ?_ rest
  rotate_left
  · show (start.peerA.pushSession _ _).ingest.p2panda.Lawful
    rw [SyncManager.pushSession_ingest]
    exact hlawfulA
  · show Y₁.ingest.p2panda.Lawful
    rw [hingestY]
    exact hlawfulB
  · show ∀ message ∈ start.toA ++ request.messages, message.message.isSyncRequest = false
    rw [hidleA, List.nil_append, hmessagesY]
    intro message hmem
    rcases List.mem_cons.mp hmem with rfl | hrest
    · rfl
    · exact hrestY message hrest
  · intro message hmem
    cases hmem
  obtain ⟨handledA, handledB, answeredA, answeredB, runA, runB, hhandledA, hhandledB, hanswersA,
    hanswersB⟩ := fifo
  -- Both nodes are done, so each has handled everything the other sent.
  dsimp only at runA runB hhandledA hhandledB
  rw [hdone.1, hidleA, List.append_nil, List.nil_append] at hhandledA
  rw [hdone.2.1, List.append_nil, List.nil_append] at hhandledB
  subst hhandledA hhandledB
  rw [hpeerY] at runA
  rw [SyncManager.pushSession_localPeer] at runB
  obtain ⟨⟨hkeptA, responsesB, hresponsesB, hheldA⟩, hkeptB, responsesA, hresponsesA, hheldB⟩ :=
    exchange_holds_entries hlawfulA hlawfulB hA.known hB.known hfreshA hfreshB handled runA runB
      hanswersA hanswersB
  rw [hA.p2panda] at hheldA
  rw [hB.p2panda] at hheldB
  exact ⟨replicatedTo_of_entryResponses _ hA.replicable hA.materialized hB.replicable hfork hkeptB
      hresponsesA hheldB,
    replicatedTo_of_entryResponses _ hB.replicable hB.materialized hA.replicable hfork.symm hkeptA
      hresponsesB hheldA⟩

/-- Log-height replication converges when no author forked a log across the two nodes: two
nodes ready for a session on the target set and without a session with each other, one of
which opens it, every call `Ok` over FIFO channels until both sides are done; then each node
holds every entry the other held in a log of a document that node replicates. -/
theorem log_height_sessions_converge {p : P2panda} (hlawful : p.Lawful) {start net : TwoPeers P}
    {side : Side} {targetSet : SchemaIdSet} {sides : List Side}
    (hA : start.peerA.ReadyFor p targetSet) (hB : start.peerB.ReadyFor p targetSet)
    (hfork : start.peerA.store.NoFork start.peerB.store) (hidle : start.Settled)
    (run : Run TwoPeers.OkStep start (.initiate side targetSet :: sides.map .deliver) net)
    (hdone : net.Settled) :
    start.peerA.store.ReplicatedTo start.peerA.ingest.schemaProvider targetSet net.peerB.store ∧
      start.peerB.store.ReplicatedTo start.peerB.ingest.schemaProvider targetSet net.peerA.store := by
  cases side with
  | a => exact replicated_of_initiate_a hlawful hA hB hfork hidle run hdone
  | b =>
    -- Node `B` opened the session: the same run with the nodes' roles exchanged.
    have hevents : (NetworkEvent.initiate .b targetSet :: sides.map .deliver).map NetworkEvent.swap =
        .initiate .a targetSet :: (sides.map Side.other).map .deliver := by
      simp [NetworkEvent.swap, Side.other, List.map_map, Function.comp_def]
    have hswapped := TwoPeers.run_swap run
    rw [hevents] at hswapped
    exact (replicated_of_initiate_a hlawful hB hA hfork.symm hidle.swap hswapped hdone.swap).symm

end Exchange

/-! ### A forked log -/

def chat : SchemaId := .application "chat" ⟨[⟨"C"⟩]⟩

def chatTargetSet : SchemaIdSet := ⟨[chat]⟩

/-- Both nodes know `chat`. No call of this ingest reaches p2panda in the run below. -/
def chatIngest : SyncIngest := { bareIngest with schemaProvider := ⟨[⟨chat, [("message", .string)]⟩]⟩ }

/-- A materialized `chat` document of one `create`, the first entry of log `0` of author `k`. -/
def forkedStore (hash : String) : Db :=
  { Db.empty with
    entries := [⟨⟨"k"⟩, hash ++ "-entry", hash, 0, some (hash ++ "-operation"), 1⟩]
    logs := [⟨⟨"k"⟩, ⟨hash⟩, 0, chat⟩]
    operations := [⟨⟨"k"⟩, ⟨hash⟩, ⟨hash⟩, .create, chat, none, some 0⟩]
    documents := [⟨⟨hash⟩, ⟨[⟨hash⟩]⟩, chat, false⟩]
    documentViews := [⟨⟨[⟨hash⟩]⟩, chat, ⟨hash⟩⟩] }

/-- Node `0` holds entry `a` and node `1` entry `b`, both at sequence number `1` of log `0` of
author `k`: the author forked its log. -/
def forkedStart : TwoPeers Nat :=
  TwoPeers.start chatIngest 0 1 (forkedStore "a") (forkedStore "b")

/-- Node `0` opened its session `0` on `chat` and sent the request. -/
def forkedRequested : TwoPeers Nat :=
  forkedStart.update .a (forkedStart.peerA.insertSession 1 0 chatTargetSet true) []
    [⟨0, .syncRequest .logHeight chatTargetSet⟩]

/-- Both `Have`s announce height `1` for the log, so neither side sends an entry, every call
returns `Ok`, and both sides finish. Node `1` never receives the entry that node `0` holds for
a document of the target set, nor node `0` the entry of node `1`. -/
theorem forked_log_survives_settled_session :
    ∃ net, Run TwoPeers.OkStep forkedStart [.initiate .a chatTargetSet, .deliver .b, .deliver .a,
        .deliver .b, .deliver .b, .deliver .a] net ∧ net.Settled ∧
      (∀ schemaId ∈ chatTargetSet.ids, (chatIngest.schemaProvider.get schemaId).isSome) ∧
      (∀ op ∈ (forkedStore "a").operations ++ (forkedStore "b").operations, op.sortedIndex.isSome) ∧
      ⟨"a"⟩ ∈ (LogHeightStrategy.new chatTargetSet).includedDocumentIds chatIngest.schemaProvider
        (forkedStore "a") ∧
      ⟨⟨"k"⟩, ⟨"a"⟩, 0, chat⟩ ∈ (forkedStore "a").logs ∧
      (∃ entry ∈ (forkedStore "a").entries, entry.publicKey = ⟨"k"⟩ ∧ entry.logId = 0 ∧
        ∀ stored ∈ net.peerB.store.entries, stored.entryHash ≠ entry.entryHash) ∧
      (∃ entry ∈ (forkedStore "b").entries, entry.publicKey = ⟨"k"⟩ ∧ entry.logId = 0 ∧
        ∀ stored ∈ net.peerA.store.entries, stored.entryHash ≠ entry.entryHash) := by
  have opened : TwoPeers.OkStep forkedStart (.initiate .a chatTargetSet) forkedRequested :=
    .initiate (by decide) rfl
  -- The five deliveries are evaluated in the kernel.
  have hsome : (forkedRequested.deliverAll [.b, .a, .b, .b, .a]).isSome := by
    decide +kernel
  have delivered := TwoPeers.run_of_deliverAll
    (Option.getD_of_ne_none (Option.ne_none_iff_isSome.mpr hsome) forkedStart).symm
  refine ⟨_, Run.cons opened delivered, ?_, by decide, by decide, by decide +kernel, by decide,
    ⟨_, List.mem_singleton_self _, rfl, rfl, by decide +kernel⟩,
    ⟨_, List.mem_singleton_self _, rfl, rfl, by decide +kernel⟩⟩
  unfold TwoPeers.Settled
  decide +kernel

/-! ### A replicated entry -/

/-- A p2panda whose hash of an entry is its bytes, that decodes every operation as a `chat`
operation, and whose `publish` stores the entry. -/
def chatP2panda : P2panda :=
  ⟨EncodedEntry.bytes, fun _ => some chat, fun store _ entry _ =>
    .ok { store with entries := store.entries ++ [⟨⟨"k"⟩, entry.bytes, entry.bytes, 0, none, 1⟩] }⟩

theorem chatP2panda_lawful : chatP2panda.Lawful where
  keeps h := by
    cases h
    exact List.subset_append_left _ _
  stores h := by
    cases h
    exact ⟨_, List.mem_append_right _ (List.mem_singleton_self _), rfl⟩

/-- The `chat` document of `forkedStore`, its entry stored under the hash of its bytes. -/
def chatStore : Db := { forkedStore "a" with entries := [⟨⟨"k"⟩, "a", "a", 0, some "a-operation", 1⟩] }

/-- Node `0` holds `chatStore`, node `1` nothing; both publish with `chatP2panda`. -/
def chatStart : TwoPeers Nat :=
  TwoPeers.start { chatIngest with p2panda := chatP2panda } 0 1 chatStore Db.empty

theorem readyFor_chatStart_a : chatStart.peerA.ReadyFor chatP2panda chatTargetSet where
  p2panda := rfl
  known := by decide
  replicable :=
    { hash := by decide
      operation := by decide
      seqNum_pos := by decide
      contiguous := by
        intro row hrow seqNum hpos hle
        obtain rfl := List.mem_singleton.mp hrow
        have hone : seqNum ≤ 1 := hle
        exact ⟨_, List.mem_singleton_self _, rfl, rfl, Nat.le_antisymm hpos hone⟩ }
  materialized := by decide

theorem readyFor_chatStart_b : chatStart.peerB.ReadyFor chatP2panda chatTargetSet where
  p2panda := rfl
  known := by decide
  replicable := ⟨nofun, nofun, nofun, nofun⟩
  materialized := nofun

/-- Node `0` holds a `chat` entry and node `1` nothing: once the session node `0` opens is done,
node `1` holds the entry. -/
theorem chat_session_replicates :
    ∃ net, Run TwoPeers.OkStep chatStart
        (.initiate .a chatTargetSet :: [.b, .a, .b, .b, .b, .a].map .deliver) net ∧ net.Settled ∧
      chatStore.ReplicatedTo chatIngest.schemaProvider chatTargetSet net.peerB.store ∧
      Db.empty.ReplicatedTo chatIngest.schemaProvider chatTargetSet net.peerA.store := by
  let opened : TwoPeers Nat :=
    chatStart.update .a (chatStart.peerA.insertSession 1 0 chatTargetSet true) []
      [⟨0, .syncRequest .logHeight chatTargetSet⟩]
  have hopened : TwoPeers.OkStep chatStart (.initiate .a chatTargetSet) opened := .initiate (by decide) rfl
  have hsome : (opened.deliverAll [.b, .a, .b, .b, .b, .a]).isSome := by
    decide +kernel
  have delivered := TwoPeers.run_of_deliverAll
    (Option.getD_of_ne_none (Option.ne_none_iff_isSome.mpr hsome) chatStart).symm
  have run := Run.cons hopened delivered
  have hdone : TwoPeers.Settled ((opened.deliverAll [.b, .a, .b, .b, .b, .a]).getD chatStart) := by
    unfold TwoPeers.Settled
    decide +kernel
  exact ⟨_, run, hdone, log_height_sessions_converge chatP2panda_lawful readyFor_chatStart_a
    readyFor_chatStart_b (fun _ _ _ h => nomatch h) ⟨rfl, rfl, rfl, rfl⟩ run hdone⟩

end Aquadoggo.Replication
