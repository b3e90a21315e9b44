import Aquadoggo.Library.Transition

/-! The connection handler of the peers protocol (`network/peers/handler.rs`): a queue of
messages for the remote, one long-lived outbound substream that the handler asks the
connection for, and one inbound substream. A substream is a state `σ` of its own; each call
the handler makes on it answers and gives the substream's next state, as polling a `Framed`
stream does. Errors of a substream are only logged, so they carry no data here. -/
namespace Aquadoggo.Network

open Library

/-- `std::task::Poll`. -/
inductive Poll (α : Type) where
  | ready (value : α)
  | pending
deriving DecidableEq, Repr

/-- The calls the handler makes on a substream of state `σ` carrying messages `μ`. -/
structure Streams (σ μ : Type) where
  pollNext : σ → Poll (Option (Except Unit μ)) × σ
  pollClose : σ → Poll (Except Unit Unit) × σ
  pollReady : σ → Poll (Except Unit Unit) × σ
  startSend : σ → μ → Except Unit Unit × σ
  pollFlush : σ → Poll (Except Unit Unit) × σ

inductive InboundSubstreamState (σ : Type) where
  | waitingInput (substream : σ)
  | closing (substream : σ)
  | poisoned
deriving DecidableEq, Repr

inductive OutboundSubstreamState (σ μ : Type) where
  | waitingOutput (substream : σ)
  | pendingSend (substream : σ) (message : μ)
  | pendingFlush (substream : σ)
  | poisoned
deriving DecidableEq, Repr

/-- `Handler`, without its listen protocol (a constant) and its last time of activity (which no
function of the file reads). -/
structure Handler (σ μ : Type) where
  outboundSubstream : Option (OutboundSubstreamState σ μ)
  inboundSubstream : Option (InboundSubstreamState σ)
  outboundSubstreamEstablishing : Bool
  sendQueue : List μ
  criticalError : Bool
deriving DecidableEq, Repr

/-- libp2p's `ConnectionEvent`, the negotiated substreams with their stream. -/
inductive ConnectionEvent (σ : Type) where
  | fullyNegotiatedInbound (protocol : σ)
  | fullyNegotiatedOutbound (protocol : σ)
  | addressChange
  | dialUpgradeError
  | listenUpgradeError
  | localProtocolsChange
  | remoteProtocolsChange
deriving DecidableEq, Repr

inductive HandlerFromBehaviour (μ : Type) where
  | message (message : μ)
  | criticalError
deriving DecidableEq, Repr

/-- `ConnectionHandlerEvent` as the handler emits it. -/
inductive ConnectionHandlerEvent (μ : Type) where
  | outboundSubstreamRequest
  | notifyBehaviour (message : μ)
deriving DecidableEq, Repr

variable {σ μ : Type}

namespace Handler

def new : Handler σ μ := ⟨none, none, false, [], false⟩

def onFullyNegotiatedOutbound (self : Handler σ μ) (protocol : σ) : Handler σ μ :=
  { self with
    outboundSubstream := some (.waitingOutput protocol)
    outboundSubstreamEstablishing := false }

def onFullyNegotiatedInbound (self : Handler σ μ) (protocol : σ) : Handler σ μ :=
  { self with inboundSubstream := some (.waitingInput protocol) }

/-- `on_connection_event`: every event but the two negotiated substreams is dropped. -/
def onConnectionEvent (self : Handler σ μ) : ConnectionEvent σ → Handler σ μ
  | .fullyNegotiatedOutbound protocol => self.onFullyNegotiatedOutbound protocol
  | .fullyNegotiatedInbound protocol => self.onFullyNegotiatedInbound protocol
  | _ => self

def onBehaviourEvent (self : Handler σ μ) : HandlerFromBehaviour μ → Handler σ μ
  | .message message => { self with sendQueue := self.sendQueue ++ [message] }
  | .criticalError => { self with criticalError := true }

@[simp] theorem onBehaviourEvent_outboundSubstream (self : Handler σ μ) (event : HandlerFromBehaviour μ) :
    (self.onBehaviourEvent event).outboundSubstream = self.outboundSubstream := by
  cases event <;> rfl

@[simp] theorem onBehaviourEvent_outboundSubstreamEstablishing (self : Handler σ μ)
    (event : HandlerFromBehaviour μ) :
    (self.onBehaviourEvent event).outboundSubstreamEstablishing = self.outboundSubstreamEstablishing := by
  cases event <;> rfl

/-- A behaviour event only adds to the queue. -/
theorem sendQueue_subset_onBehaviourEvent (self : Handler σ μ) (event : HandlerFromBehaviour μ) :
    self.sendQueue ⊆ (self.onBehaviourEvent event).sendQueue := by
  cases event with
  | message message => exact List.subset_append_left _ _
  | criticalError => exact List.Subset.refl _

end Handler

/-- The two connection events that answer a request for an outbound substream. -/
def ConnectionEvent.answersRequest : ConnectionEvent σ → Bool
  | .fullyNegotiatedOutbound _ | .dialUpgradeError => true
  | _ => false

/-- An event that answers no request leaves the outbound side of the handler as it is. -/
theorem Handler.onConnectionEvent_of_answersRequest_eq_false (self : Handler σ μ)
    {event : ConnectionEvent σ} (h : event.answersRequest = false) :
    (self.onConnectionEvent event).outboundSubstream = self.outboundSubstream ∧
      (self.onConnectionEvent event).outboundSubstreamEstablishing =
        self.outboundSubstreamEstablishing ∧
      (self.onConnectionEvent event).sendQueue = self.sendQueue := by
  cases event <;> first | exact ⟨rfl, rfl, rfl⟩ | cases h

/-- Where the outbound loop of `poll` stops: the outbound substream, the queue, and the
messages it passed to `start_send` on the way. -/
structure OutboundResult (σ μ : Type) where
  outbound : Option (OutboundSubstreamState σ μ)
  queue : List μ
  started : List μ
deriving DecidableEq, Repr

section Outbound

variable (env : Streams σ μ)

/-- `PendingFlush`: once the flush is done the loop goes on from `WaitingOutput`, with `next`. -/
def flushFrom (substream : σ) (queue : List μ) (next : σ → OutboundResult σ μ) :
    OutboundResult σ μ :=
  match env.pollFlush substream with
  | (.ready (.ok ()), substream) => next substream
  | (.ready (.error ()), _) => ⟨none, queue, []⟩
  | (.pending, substream) => ⟨some (.pendingFlush substream), queue, []⟩

/-- `PendingSend`: once the substream is ready the message goes to `start_send`, and the loop
flushes. A failed `poll_ready` or `start_send` drops the substream with the message. -/
def sendFrom (substream : σ) (message : μ) (queue : List μ) (next : σ → OutboundResult σ μ) :
    OutboundResult σ μ :=
  match env.pollReady substream with
  | (.ready (.ok ()), substream) =>
    match env.startSend substream message with
    | (.ok (), substream) =>
      let result := flushFrom env substream queue next
      { result with started := message :: result.started }
    | (.error (), _) => ⟨none, queue, [message]⟩
  | (.ready (.error ()), _) => ⟨none, queue, []⟩
  | (.pending, substream) => ⟨some (.pendingSend substream message), queue, []⟩

/-- `WaitingOutput`: pop the next message and send it, until the queue is empty or a call
stops the loop. Each message goes through one send and one flush, so the recursion is on the
queue. -/
def drainQueue (substream : σ) : List μ → OutboundResult σ μ
  | [] => ⟨some (.waitingOutput substream), [], []⟩
  | message :: queue => sendFrom env substream message queue fun substream => drainQueue substream queue

/-- The outbound loop of `poll`; `none` is its `unreachable!` on a poisoned substream. -/
def processOutbound (outbound : Option (OutboundSubstreamState σ μ)) (queue : List μ) :
    Option (OutboundResult σ μ) :=
  match outbound with
  | none => some ⟨none, queue, []⟩
  | some (.waitingOutput substream) => some (drainQueue env substream queue)
  | some (.pendingSend substream message) =>
    some (sendFrom env substream message queue fun substream => drainQueue env substream queue)
  | some (.pendingFlush substream) =>
    some (flushFrom env substream queue fun substream => drainQueue env substream queue)
  | some .poisoned => none

/-- `Closing`: a finished close, failed or not, drops the substream. -/
def closeFrom (substream : σ) : Option (InboundSubstreamState σ) :=
  match env.pollClose substream with
  | (.ready _, _) => none
  | (.pending, substream) => some (.closing substream)

/-- The inbound loop of `poll`: the inbound substream after it, and the message it returns
when one arrived; `none` is its `unreachable!`. A substream that fails to decode or ends is
closed in the same call. -/
def processInbound : Option (InboundSubstreamState σ) →
    Option (Option (InboundSubstreamState σ) × Option μ)
  | none => some (none, none)
  | some (.waitingInput substream) =>
    match env.pollNext substream with
    | (.ready (some (.ok message)), substream) => some (some (.waitingInput substream), some message)
    | (.ready (some (.error ())), substream) => some (closeFrom env substream, none)
    | (.ready none, substream) => some (closeFrom env substream, none)
    | (.pending, substream) => some (some (.waitingInput substream), none)
  | some (.closing substream) => some (closeFrom env substream, none)
  | some .poisoned => none

/-- `poll`: ask for the outbound substream when messages wait and none is there or being
established, else process the inbound and then the outbound substream. Gives the handler, what
`poll` returns and the messages passed to `start_send`; `none` is a panic. -/
def Handler.poll (self : Handler σ μ) :
    Option (Handler σ μ × Poll (ConnectionHandlerEvent μ) × List μ) := do
  if !self.sendQueue.isEmpty && self.outboundSubstream.isNone &&
      !self.outboundSubstreamEstablishing then
    return ({ self with outboundSubstreamEstablishing := true }, .ready .outboundSubstreamRequest, [])
  let (inbound, received) ← processInbound env self.inboundSubstream
  match received with
  | some message =>
    return ({ self with inboundSubstream := inbound }, .ready (.notifyBehaviour message), [])
  | none =>
    let result ← processOutbound env self.outboundSubstream self.sendQueue
    return ({ self with
      inboundSubstream := inbound
      outboundSubstream := result.outbound
      sendQueue := result.queue }, .pending, result.started)

end Outbound

section Poll

variable {env : Streams σ μ}

/-- What `poll` can do: ask for the outbound substream, or return a message that arrived on
the inbound substream, or run the outbound loop. -/
theorem Handler.poll_eq_some {self handler : Handler σ μ} {result : Poll (ConnectionHandlerEvent μ)}
    {started : List μ} (h : self.poll env = some (handler, result, started)) :
    (self.sendQueue ≠ [] ∧ self.outboundSubstream = none ∧
        self.outboundSubstreamEstablishing = false ∧
        handler = { self with outboundSubstreamEstablishing := true } ∧
        result = .ready .outboundSubstreamRequest ∧ started = []) ∨
      ((self.sendQueue ≠ [] → self.outboundSubstream = none →
          self.outboundSubstreamEstablishing = true) ∧
        ∃ inbound received, processInbound env self.inboundSubstream = some (inbound, received) ∧
          ((∃ message, received = some message ∧ handler = { self with inboundSubstream := inbound } ∧
              result = .ready (.notifyBehaviour message) ∧ started = []) ∨
            (received = none ∧ ∃ outbound, processOutbound env self.outboundSubstream self.sendQueue =
                some outbound ∧
              handler = { self with
                inboundSubstream := inbound
                outboundSubstream := outbound.outbound
                sendQueue := outbound.queue } ∧
              result = .pending ∧ started = outbound.started))) := by
  unfold Handler.poll at h
  split at h
  next hrequest =>
    cases h
    simp only [Bool.and_eq_true, Bool.not_eq_true', List.isEmpty_eq_false_iff, Option.isNone_iff_eq_none]
      at hrequest
    exact .inl ⟨hrequest.1.1, hrequest.1.2, hrequest.2, rfl, rfl, rfl⟩
  next hnone =>
    have hguard : self.sendQueue ≠ [] → self.outboundSubstream = none →
        self.outboundSubstreamEstablishing = true := by
      intro hqueue houtbound
      simpa [hqueue, houtbound] using hnone
    simp only [bind, Option.bind] at h
    split at h
    next => cases h
    next _ inboundResult hinbound =>
      obtain ⟨inbound, received⟩ := inboundResult
      refine .inr ⟨hguard, inbound, received, hinbound, ?_⟩
      dsimp only at h
      split at h
      next message =>
        cases h
        exact .inl ⟨message, rfl, rfl, rfl, rfl⟩
      next =>
        split at h
        next => cases h
        next _ outbound houtbound =>
          cases h
          exact .inr ⟨rfl, outbound, houtbound, rfl, rfl, rfl⟩

end Poll

/-- What the connection and the network behaviour do to a handler. -/
inductive HandlerLabel (σ μ : Type) where
  | behaviour (event : HandlerFromBehaviour μ)
  | connection (event : ConnectionEvent σ)
  | poll

/-- A handler in its connection, with the requests for an outbound substream that the
connection has not answered, and every message passed to `start_send` so far. -/
structure Connection (σ μ : Type) where
  handler : Handler σ μ
  outstanding : Nat
  started : List μ

/-- How many outbound substreams a value of `poll` asks for. -/
def Poll.requests : Poll (ConnectionHandlerEvent μ) → Nat
  | .ready .outboundSubstreamRequest => 1
  | _ => 0

/-- The environment of a handler: the connection answers each request for an outbound
substream once, and only while it is open; the behaviour and the other connection events come
at any time, and so does `poll`, over substreams that answer as `env` says. -/
inductive ConnectionStep (env : Streams σ μ) :
    Connection σ μ → HandlerLabel σ μ → Connection σ μ → Prop where
  | behaviour {connection : Connection σ μ} (event : HandlerFromBehaviour μ) :
      ConnectionStep env connection (.behaviour event)
        ⟨connection.handler.onBehaviourEvent event, connection.outstanding, connection.started⟩
  | answer {connection : Connection σ μ} {event : ConnectionEvent σ}
      (hanswer : event.answersRequest = true) (hopen : 0 < connection.outstanding) :
      ConnectionStep env connection (.connection event)
        ⟨connection.handler.onConnectionEvent event, connection.outstanding - 1, connection.started⟩
  | other {connection : Connection σ μ} {event : ConnectionEvent σ}
      (hother : event.answersRequest = false) :
      ConnectionStep env connection (.connection event)
        ⟨connection.handler.onConnectionEvent event, connection.outstanding, connection.started⟩
  | poll {connection : Connection σ μ} {handler : Handler σ μ}
      {result : Poll (ConnectionHandlerEvent μ)} {started : List μ}
      (hpoll : connection.handler.poll env = some (handler, result, started)) :
      ConnectionStep env connection .poll
        ⟨handler, connection.outstanding + result.requests, connection.started ++ started⟩

/-- A handler without an outbound substream that takes one to be on its way while the
connection owes it none: nothing will give it a substream again. -/
def Connection.Stalled (connection : Connection σ μ) : Prop :=
  connection.handler.outboundSubstream = none ∧
    connection.handler.outboundSubstreamEstablishing = true ∧ connection.outstanding = 0

section Stalled

variable {env : Streams σ μ}

/-- `poll` on a handler without an outbound substream that will not ask for one changes neither
its outbound side nor its queue, and sends nothing. -/
theorem Handler.poll_of_stalled {self handler : Handler σ μ}
    {result : Poll (ConnectionHandlerEvent μ)} {started : List μ}
    (houtbound : self.outboundSubstream = none) (hestablishing : self.outboundSubstreamEstablishing = true)
    (h : self.poll env = some (handler, result, started)) :
    handler.outboundSubstream = none ∧ handler.outboundSubstreamEstablishing = true ∧
      handler.sendQueue = self.sendQueue ∧ result.requests = 0 ∧ started = [] := by
  rcases Handler.poll_eq_some h with ⟨-, -, hfalse, -⟩ | ⟨-, inbound, received, -, hreceived⟩
  · rw [hestablishing] at hfalse
    cases hfalse
  rcases hreceived with ⟨message, -, rfl, rfl, rfl⟩ | ⟨-, outbound, houtput, rfl, rfl, rfl⟩
  · exact ⟨houtbound, hestablishing, rfl, rfl, rfl⟩
  · rw [houtbound] at houtput
    cases houtput
    exact ⟨rfl, hestablishing, rfl, rfl, rfl⟩

/-- The step lemma of a stalled connection: it stays stalled, sends nothing and keeps its
queue. -/
theorem ConnectionStep.of_stalled {connection next : Connection σ μ} {label : HandlerLabel σ μ}
    (hstalled : connection.Stalled) (hstep : ConnectionStep env connection label next) :
    next.Stalled ∧ next.started = connection.started ∧
      connection.handler.sendQueue ⊆ next.handler.sendQueue := by
  obtain ⟨houtbound, hestablishing, hnone⟩ := hstalled
  cases hstep with
  | behaviour event =>
    exact ⟨⟨by simpa using houtbound, by simpa using hestablishing, hnone⟩, rfl,
      Handler.sendQueue_subset_onBehaviourEvent _ _⟩
  | answer _ hopen =>
    rw [hnone] at hopen
    exact absurd hopen (Nat.lt_irrefl 0)
  | other hother =>
    obtain ⟨houtbound', hestablishing', hqueue⟩ :=
      connection.handler.onConnectionEvent_of_answersRequest_eq_false hother
    exact ⟨⟨houtbound'.trans houtbound, hestablishing'.trans hestablishing, hnone⟩, rfl,
      hqueue ▸ List.Subset.refl _⟩
  | poll hpoll =>
    obtain ⟨houtbound', hestablishing', hqueue, hrequests, hstarted⟩ :=
      Handler.poll_of_stalled houtbound hestablishing hpoll
    refine ⟨⟨houtbound', hestablishing', by simp [hnone, hrequests]⟩, by simp [hstarted], ?_⟩
    rw [hqueue]
    exact List.Subset.refl _

/-- The run lemma: every run from a stalled connection keeps it stalled, sends nothing and
keeps every queued message. -/
theorem Connection.Stalled.of_run {connection final : Connection σ μ}
    {labels : List (HandlerLabel σ μ)} (hstalled : connection.Stalled)
    (run : Run (ConnectionStep env) connection labels final) :
    final.Stalled ∧ final.started = connection.started ∧
      connection.handler.sendQueue ⊆ final.handler.sendQueue := by
  apply Run.invariant (fun next => next.Stalled ∧ next.started = connection.started ∧
    connection.handler.sendQueue ⊆ next.handler.sendQueue) _ run ⟨hstalled, rfl, List.Subset.refl _⟩
  rintro current label next ⟨hcurrent, hstarted, hqueue⟩ hstep
  obtain ⟨hnext, hstarted', hqueue'⟩ := hstep.of_stalled hcurrent
  exact ⟨hnext, hstarted'.trans hstarted, List.Subset.trans hqueue hqueue'⟩

end Stalled

/-- A dial upgrade error answers the handler's request, but `on_connection_event` drops it, so
the flag that a substream is being established stays set. From then on `poll` never asks for an
outbound substream again and the connection owes none: a queued message is never passed to
`start_send`, whatever the substreams answer and however often `poll` is called. -/
theorem dialUpgradeError_strands_queue (env : Streams σ μ) (message : μ) :
    ∃ stalled : Connection σ μ,
      Run (ConnectionStep env) ⟨Handler.new, 0, []⟩
          [.behaviour (.message message), .poll, .connection .dialUpgradeError] stalled ∧
        stalled.outstanding = 0 ∧ stalled.handler.outboundSubstreamEstablishing = true ∧
        ∀ labels final, Run (ConnectionStep env) stalled labels final →
          message ∈ final.handler.sendQueue ∧ final.started = [] ∧ final.outstanding = 0 ∧
            final.handler.outboundSubstreamEstablishing = true := by
  have hqueued : ConnectionStep env ⟨Handler.new, 0, []⟩ (.behaviour (.message message))
      ⟨⟨none, none, false, [message], false⟩, 0, []⟩ := .behaviour (.message message)
  have hrequest : ConnectionStep env ⟨⟨none, none, false, [message], false⟩, 0, []⟩ .poll
      ⟨⟨none, none, true, [message], false⟩, 1, []⟩ :=
    @ConnectionStep.poll σ μ env ⟨⟨none, none, false, [message], false⟩, 0, []⟩
      ⟨none, none, true, [message], false⟩ (.ready .outboundSubstreamRequest) [] rfl
  have hanswered : ConnectionStep env ⟨⟨none, none, true, [message], false⟩, 1, []⟩
      (.connection .dialUpgradeError) ⟨⟨none, none, true, [message], false⟩, 0, []⟩ :=
    .answer rfl Nat.one_pos
  refine ⟨_, ((Run.single hqueued).snoc hrequest).snoc hanswered, rfl, rfl, ?_⟩
  intro labels final run
  obtain ⟨⟨-, hestablishing, hnone⟩, hstarted, hqueue⟩ := Connection.Stalled.of_run ⟨rfl, rfl, rfl⟩ run
  exact ⟨hqueue (List.mem_singleton_self message), hstarted, hnone, hestablishing⟩

/-- The flag says that a request for the outbound substream is open, and at most one is. -/
def Connection.EstablishingMatches (connection : Connection σ μ) : Prop :=
  (connection.handler.outboundSubstreamEstablishing = true ↔ 0 < connection.outstanding) ∧
    connection.outstanding ≤ 1

section Establishing

variable {env : Streams σ μ}

/-- `poll` sets the flag exactly when it asks for an outbound substream, and otherwise leaves it
as it is. -/
theorem Handler.poll_establishing {self handler : Handler σ μ}
    {result : Poll (ConnectionHandlerEvent μ)} {started : List μ}
    (h : self.poll env = some (handler, result, started)) :
    (self.outboundSubstreamEstablishing = false ∧ handler.outboundSubstreamEstablishing = true ∧
        result.requests = 1) ∨
      (handler.outboundSubstreamEstablishing = self.outboundSubstreamEstablishing ∧
        result.requests = 0) := by
  rcases Handler.poll_eq_some h with ⟨-, -, hfalse, rfl, rfl, -⟩ | ⟨-, inbound, received, -, hreceived⟩
  · exact .inl ⟨hfalse, rfl, rfl⟩
  · rcases hreceived with ⟨message, -, rfl, rfl, -⟩ | ⟨-, outbound, -, rfl, rfl, -⟩ <;>
      exact .inr ⟨rfl, rfl⟩

/-- The step lemma of the flag: every step but a dial upgrade error keeps it in line with the
open requests. -/
theorem ConnectionStep.establishingMatches {connection next : Connection σ μ}
    {label : HandlerLabel σ μ} (hlabel : label ≠ .connection .dialUpgradeError)
    (hmatches : connection.EstablishingMatches) (hstep : ConnectionStep env connection label next) :
    next.EstablishingMatches := by
  obtain ⟨hiff, hle⟩ := hmatches
  cases hstep with
  | behaviour event => exact ⟨by simpa using hiff, hle⟩
  | @answer event hanswer hopen =>
    -- Only a negotiated substream can answer here; it clears the flag of the one open request.
    cases event with
    | fullyNegotiatedOutbound protocol =>
      show (false = true ↔ 0 < connection.outstanding - 1) ∧ connection.outstanding - 1 ≤ 1
      exact ⟨⟨fun hfalse => absurd hfalse Bool.false_ne_true, fun _ => by omega⟩, by omega⟩
    | dialUpgradeError => exact absurd rfl hlabel
    | _ => cases hanswer
  | other hother =>
    obtain ⟨-, hestablishing, -⟩ :=
      connection.handler.onConnectionEvent_of_answersRequest_eq_false hother
    exact ⟨hestablishing ▸ hiff, hle⟩
  | @poll handler result started hpoll =>
    rcases Handler.poll_establishing hpoll with
      ⟨hfalse, hestablishing, hrequests⟩ | ⟨hestablishing, hrequests⟩
    · -- A request is made only while none is open.
      have hnone : connection.outstanding = 0 := by
        by_contra hne
        have := hiff.mpr (Nat.pos_of_ne_zero hne)
        rw [hfalse] at this
        cases this
      simp [Connection.EstablishingMatches, hestablishing, hrequests, hnone]
    · exact ⟨by simpa [hestablishing, hrequests] using hiff, by simpa [hrequests] using hle⟩

/-- Where the connection answers every request with a substream and never with a dial upgrade
error, the flag is set exactly while a request is open. -/
theorem establishing_iff_request_open {labels : List (HandlerLabel σ μ)} {final : Connection σ μ}
    (run : Run (ConnectionStep env) ⟨Handler.new, 0, []⟩ labels final)
    (hlabels : ∀ label ∈ labels, label ≠ .connection .dialUpgradeError) :
    (final.handler.outboundSubstreamEstablishing = true ↔ 0 < final.outstanding) ∧
      final.outstanding ≤ 1 :=
  Run.preserved_by Connection.EstablishingMatches (· ≠ .connection .dialUpgradeError)
    (fun _ _ _ hlabel hmatches hstep => hstep.establishingMatches hlabel hmatches) run hlabels
    ⟨by simp [Handler.new], by simp⟩

end Establishing

/-- Substreams that are always ready and never fail to send or to flush. -/
structure Streams.Reliable (env : Streams σ μ) : Prop where
  pollReady : ∀ substream, (env.pollReady substream).1 = .ready (.ok ())
  startSend : ∀ substream message, (env.startSend substream message).1 = .ok ()
  pollFlush : ∀ substream, (env.pollFlush substream).1 = .ready (.ok ())

section Reliable

variable {env : Streams σ μ}

/-- Over reliable substreams the outbound loop passes the whole queue to `start_send`, in
order, and waits for more output. -/
theorem drainQueue_of_reliable (henv : env.Reliable) :
    ∀ (queue : List μ) (substream : σ),
      ∃ last, drainQueue env substream queue = ⟨some (.waitingOutput last), [], queue⟩
  | [], substream => ⟨substream, rfl⟩
  | message :: queue, substream => by
    obtain ⟨ready, hready⟩ : ∃ next, env.pollReady substream = (.ready (.ok ()), next) :=
      ⟨_, Prod.ext (henv.pollReady substream) rfl⟩
    obtain ⟨sent, hsent⟩ : ∃ next, env.startSend ready message = (.ok (), next) :=
      ⟨_, Prod.ext (henv.startSend ready message) rfl⟩
    obtain ⟨flushed, hflushed⟩ : ∃ next, env.pollFlush sent = (.ready (.ok ()), next) :=
      ⟨_, Prod.ext (henv.pollFlush sent) rfl⟩
    obtain ⟨last, hlast⟩ := drainQueue_of_reliable henv queue flushed
    refine ⟨last, ?_⟩
    simp only [drainQueue, sendFrom, hready, hsent, flushFrom, hflushed, hlast]

/-- Once the outbound substream waits for output, one `poll` over reliable substreams passes
every queued message to `start_send`, when no message comes in first. -/
theorem Handler.poll_of_waitingOutput (henv : env.Reliable) {self : Handler σ μ} {substream : σ}
    (houtbound : self.outboundSubstream = some (.waitingOutput substream))
    (hinbound : self.inboundSubstream = none) :
    ∃ handler, self.poll env = some (handler, .pending, self.sendQueue) ∧ handler.sendQueue = [] := by
  obtain ⟨last, hdrain⟩ := drainQueue_of_reliable henv self.sendQueue substream
  refine ⟨{ self with outboundSubstream := some (.waitingOutput last), sendQueue := [] }, ?_, rfl⟩
  simp [Handler.poll, houtbound, hinbound, processInbound, processOutbound, hdrain]

end Reliable

end Aquadoggo.Network
