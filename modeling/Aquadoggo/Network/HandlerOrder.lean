import Aquadoggo.Network.Handler

/-! The order in which a handler sends. A message the behaviour gives the handler waits in the
queue, is held by the outbound substream while it waits to be sent, and is then done with:
passed to `start_send`, or dropped with a failed substream. So whatever the substreams answer,
the messages reach `start_send` in the order they were queued, each at most once. -/
namespace Aquadoggo.Network

open Library

variable {σ μ : Type}

/-- The message a pending send holds. -/
def inFlight : Option (OutboundSubstreamState σ μ) → List μ
  | some (.pendingSend _ message) => [message]
  | _ => []

/-- The messages a label gives the handler to send. -/
def HandlerLabel.queued : HandlerLabel σ μ → List μ
  | .behaviour (.message message) => [message]
  | _ => []

/-- Of the messages `before`, the outbound loop is done with some, in order, and passed some of
those to `start_send`; the one it holds and the queue it leaves are the rest. -/
def Conserves (before : List μ) (result : OutboundResult σ μ) : Prop :=
  ∃ done, before = done ++ inFlight result.outbound ++ result.queue ∧ result.started.Sublist done

/-- A loop that stops before sending keeps what it holds and the queue. -/
theorem conserves_held (outbound : Option (OutboundSubstreamState σ μ)) (queue : List μ) :
    Conserves (inFlight outbound ++ queue) ⟨outbound, queue, []⟩ :=
  ⟨[], rfl, List.Sublist.slnil⟩

section Outbound

variable (env : Streams σ μ)

theorem conserves_flushFrom (substream : σ) (queue : List μ) {next : σ → OutboundResult σ μ}
    (hnext : ∀ substream, Conserves queue (next substream)) :
    Conserves queue (flushFrom env substream queue next) := by
  unfold flushFrom
  split
  · apply hnext
  · exact conserves_held none queue
  · exact conserves_held (some (.pendingFlush _)) queue

theorem conserves_sendFrom (substream : σ) (message : μ) (queue : List μ) {next : σ → OutboundResult σ μ}
    (hnext : ∀ substream, Conserves queue (next substream)) :
    Conserves (message :: queue) (sendFrom env substream message queue next) := by
  unfold sendFrom
  split
  · split
    · obtain ⟨done, hsplit, hstarted⟩ := conserves_flushFrom env _ queue hnext
      exact ⟨message :: done, congrArg (List.cons message) hsplit, hstarted.cons_cons message⟩
    · exact ⟨[message], by simp [inFlight], List.Sublist.refl _⟩
  · exact ⟨[message], by simp [inFlight], List.nil_sublist _⟩
  · exact conserves_held (some (.pendingSend _ message)) queue

theorem conserves_drainQueue : ∀ (queue : List μ) (substream : σ), Conserves queue (drainQueue env substream queue)
  | [], _ => ⟨[], rfl, List.Sublist.slnil⟩
  | message :: queue, substream =>
    conserves_sendFrom env substream message queue fun substream => conserves_drainQueue queue substream

theorem conserves_processOutbound {outbound : Option (OutboundSubstreamState σ μ)} {queue : List μ}
    {result : OutboundResult σ μ} (h : processOutbound env outbound queue = some result) :
    Conserves (inFlight outbound ++ queue) result := by
  unfold processOutbound at h
  split at h <;> cases h
  · exact conserves_held none queue
  · exact conserves_drainQueue env queue _
  · exact conserves_sendFrom env _ _ queue fun substream => conserves_drainQueue env queue substream
  · exact conserves_flushFrom env _ queue fun substream => conserves_drainQueue env queue substream

theorem processOutbound_none (queue : List μ) :
    processOutbound env none queue = some ⟨none, queue, []⟩ := rfl

end Outbound

/-- What a connection keeps of the messages `queued` to it: those it is done with, among them
in order those it passed to `start_send`, then the one being sent, then the queue. A request
for an outbound substream is open only while the handler has none and waits for one, and at
most one is. -/
structure Connection.Ordered (queued : List μ) (connection : Connection σ μ) : Prop where
  split : ∃ done, queued = done ++ inFlight connection.handler.outboundSubstream ++
    connection.handler.sendQueue ∧ connection.started.Sublist done
  outstanding_le : connection.outstanding ≤ 1
  waiting : 0 < connection.outstanding →
    connection.handler.outboundSubstream = none ∧ connection.handler.outboundSubstreamEstablishing = true

section Ordered

variable {env : Streams σ μ} {queued : List μ}

theorem ordered_new : (⟨Handler.new, 0, []⟩ : Connection σ μ).Ordered [] :=
  ⟨⟨[], rfl, List.Sublist.refl _⟩, Nat.zero_le _, fun h => absurd h (Nat.lt_irrefl 0)⟩

theorem Connection.Ordered.behaviour {connection : Connection σ μ} (h : connection.Ordered queued)
    (event : HandlerFromBehaviour μ) :
    (⟨connection.handler.onBehaviourEvent event, connection.outstanding, connection.started⟩ :
      Connection σ μ).Ordered (queued ++ (HandlerLabel.behaviour event : HandlerLabel σ μ).queued) := by
  obtain ⟨⟨done, hsplit, hstarted⟩, hle, hwaiting⟩ := h
  refine ⟨⟨done, ?_, hstarted⟩, hle, by simpa using hwaiting⟩
  cases event with
  | message message => simp [Handler.onBehaviourEvent, HandlerLabel.queued, hsplit]
  | criticalError => simp [Handler.onBehaviourEvent, HandlerLabel.queued, hsplit]

theorem Connection.Ordered.answer {connection : Connection σ μ} (h : connection.Ordered queued)
    {event : ConnectionEvent σ} (hanswer : event.answersRequest = true) (hopen : 0 < connection.outstanding) :
    (⟨connection.handler.onConnectionEvent event, connection.outstanding - 1, connection.started⟩ :
      Connection σ μ).Ordered queued := by
  obtain ⟨⟨done, hsplit, hstarted⟩, hle, hwaiting⟩ := h
  obtain ⟨hnone, -⟩ := hwaiting hopen
  refine ⟨⟨done, ?_, hstarted⟩, (show connection.outstanding - 1 ≤ 1 by omega),
    fun hpos => absurd (show 0 < connection.outstanding - 1 from hpos) (by omega)⟩
  -- The answer is a negotiated substream, which waits for output, or an error, which changes
  -- nothing; either way no message is held.
  cases event with
  | fullyNegotiatedOutbound protocol =>
    simpa [Handler.onConnectionEvent, Handler.onFullyNegotiatedOutbound, inFlight, hnone] using hsplit
  | dialUpgradeError => exact hsplit
  | _ => cases hanswer

theorem Connection.Ordered.other {connection : Connection σ μ} (h : connection.Ordered queued)
    {event : ConnectionEvent σ} (hother : event.answersRequest = false) :
    (⟨connection.handler.onConnectionEvent event, connection.outstanding, connection.started⟩ :
      Connection σ μ).Ordered queued := by
  obtain ⟨houtbound, hestablishing, hqueue⟩ := connection.handler.onConnectionEvent_of_answersRequest_eq_false hother
  obtain ⟨⟨done, hsplit, hstarted⟩, hle, hwaiting⟩ := h
  refine ⟨⟨done, ?_, hstarted⟩, hle, ?_⟩
  · rw [houtbound, hqueue]
    exact hsplit
  · rw [houtbound, hestablishing]
    exact hwaiting

theorem Connection.Ordered.poll {connection : Connection σ μ} (h : connection.Ordered queued)
    {handler : Handler σ μ} {result : Poll (ConnectionHandlerEvent μ)} {started : List μ}
    (hpoll : connection.handler.poll env = some (handler, result, started)) :
    (⟨handler, connection.outstanding + result.requests, connection.started ++ started⟩ :
      Connection σ μ).Ordered queued := by
  obtain ⟨⟨done, hsplit, hstarted⟩, hle, hwaiting⟩ := h
  rcases Handler.poll_eq_some hpoll with
    ⟨-, hnone, hfalse, rfl, rfl, rfl⟩ | ⟨-, inbound, received, -, hreceived⟩
  · -- A request is made only while none is open.
    have hclosed : connection.outstanding = 0 := by
      by_contra hne
      rw [(hwaiting (Nat.pos_of_ne_zero hne)).2] at hfalse
      cases hfalse
    refine ⟨⟨done, by simpa using hsplit, by simpa using hstarted⟩, by simp [Poll.requests, hclosed], ?_⟩
    intro _
    exact ⟨hnone, rfl⟩
  rcases hreceived with ⟨message, -, rfl, rfl, rfl⟩ | ⟨-, outbound, houtbound, rfl, rfl, rfl⟩
  · exact ⟨⟨done, hsplit, by simpa using hstarted⟩, by simpa [Poll.requests] using hle,
      by simpa [Poll.requests] using hwaiting⟩
  obtain ⟨popped, hpopped, hsent⟩ := conserves_processOutbound env houtbound
  refine ⟨⟨done ++ popped, ?_, hstarted.append hsent⟩, by simpa [Poll.requests] using hle, ?_⟩
  · rw [hsplit, List.append_assoc, hpopped]
    simp
  · -- While a request is open there is no outbound substream, and the loop keeps it so.
    intro hopen
    obtain ⟨hnone, hestablishing⟩ := hwaiting (by simpa [Poll.requests] using hopen)
    rw [hnone, processOutbound_none, Option.some.injEq] at houtbound
    subst houtbound
    exact ⟨rfl, hestablishing⟩

theorem ConnectionStep.ordered {connection next : Connection σ μ} {label : HandlerLabel σ μ}
    (h : connection.Ordered queued) (hstep : ConnectionStep env connection label next) :
    next.Ordered (queued ++ label.queued) := by
  cases hstep with
  | behaviour event => exact h.behaviour event
  | answer hanswer hopen => simpa [HandlerLabel.queued] using h.answer hanswer hopen
  | other hother => simpa [HandlerLabel.queued] using h.other hother
  | poll hpoll => simpa [HandlerLabel.queued] using h.poll hpoll

/-- Whatever the substreams answer, and in whatever order the behaviour, the connection and
`poll` act, a handler passes to `start_send` some of the messages the behaviour gave it, in the
order it gave them and each at most once; the others it dropped with a failed substream, holds
in a pending send, or still queues, in that order. At most one request for an outbound
substream is open at any time. -/
theorem handler_sends_in_queue_order {labels : List (HandlerLabel σ μ)} {final : Connection σ μ}
    (run : Run (ConnectionStep env) ⟨Handler.new, 0, []⟩ labels final) :
    (∃ done, labels.flatMap HandlerLabel.queued =
        done ++ inFlight final.handler.outboundSubstream ++ final.handler.sendQueue ∧
      final.started.Sublist done) ∧ final.outstanding ≤ 1 := by
  have hordered := run.invariant_with_history
    (fun labels connection => connection.Ordered (labels.flatMap HandlerLabel.queued))
    (fun labels _ label _ h hstep => by simpa using hstep.ordered h) ordered_new
  exact ⟨hordered.split, hordered.outstanding_le⟩

/-- Substreams that are always ready, accept every message and never bring one in. -/
def steadyStreams : Streams Unit Nat :=
  ⟨fun substream => (.pending, substream), fun substream => (.ready (.ok ()), substream),
    fun substream => (.ready (.ok ()), substream), fun substream _ => (.ok (), substream),
    fun substream => (.ready (.ok ()), substream)⟩

/-- Two messages queued, then a `poll` that asks for a substream. -/
theorem steady_requested : Run (ConnectionStep steadyStreams) ⟨Handler.new, 0, []⟩
    [.behaviour (.message 1), .behaviour (.message 2), .poll] ⟨⟨none, none, true, [1, 2], false⟩, 1, []⟩ := by
  have hfirst : ConnectionStep steadyStreams ⟨Handler.new, 0, []⟩ (.behaviour (.message 1))
      ⟨⟨none, none, false, [1], false⟩, 0, []⟩ := .behaviour (.message 1)
  have hsecond : ConnectionStep steadyStreams ⟨⟨none, none, false, [1], false⟩, 0, []⟩ (.behaviour (.message 2))
      ⟨⟨none, none, false, [1, 2], false⟩, 0, []⟩ := .behaviour (.message 2)
  have hrequest : ConnectionStep steadyStreams ⟨⟨none, none, false, [1, 2], false⟩, 0, []⟩ .poll
      ⟨⟨none, none, true, [1, 2], false⟩, 1, []⟩ :=
    @ConnectionStep.poll Unit Nat steadyStreams ⟨⟨none, none, false, [1, 2], false⟩, 0, []⟩
      ⟨none, none, true, [1, 2], false⟩ (.ready .outboundSubstreamRequest) [] rfl
  exact Run.cons hfirst (Run.cons hsecond (Run.single hrequest))

/-- Two messages queued, a substream asked for and given: the next `poll` sends both, in order. -/
theorem steady_handler_sends_in_order :
    ∃ final : Connection Unit Nat, Run (ConnectionStep steadyStreams) ⟨Handler.new, 0, []⟩
        [.behaviour (.message 1), .behaviour (.message 2), .poll, .connection (.fullyNegotiatedOutbound ()),
          .poll] final ∧ final.started = [1, 2] ∧
      (∃ done, [1, 2] = done ++ inFlight final.handler.outboundSubstream ++ final.handler.sendQueue ∧
        final.started.Sublist done) ∧ final.outstanding ≤ 1 := by
  have hanswer : ConnectionStep steadyStreams ⟨⟨none, none, true, [1, 2], false⟩, 1, []⟩
      (.connection (.fullyNegotiatedOutbound ())) ⟨⟨some (.waitingOutput ()), none, false, [1, 2], false⟩, 0, []⟩ :=
    .answer rfl Nat.one_pos
  have hsend : ConnectionStep steadyStreams ⟨⟨some (.waitingOutput ()), none, false, [1, 2], false⟩, 0, []⟩ .poll
      ⟨⟨some (.waitingOutput ()), none, false, [], false⟩, 0, [1, 2]⟩ :=
    @ConnectionStep.poll Unit Nat steadyStreams ⟨⟨some (.waitingOutput ()), none, false, [1, 2], false⟩, 0, []⟩
      ⟨some (.waitingOutput ()), none, false, [], false⟩ .pending [1, 2] rfl
  have run := steady_requested.append (Run.cons hanswer (Run.single hsend))
  exact ⟨_, run, rfl, handler_sends_in_queue_order run⟩

/-- While the request that `poll` made is open, the flag says so. -/
theorem steady_request_open :
    ∃ connection : Connection Unit Nat, Run (ConnectionStep steadyStreams) ⟨Handler.new, 0, []⟩
        [.behaviour (.message 1), .behaviour (.message 2), .poll] connection ∧
      connection.handler.outboundSubstreamEstablishing = true ∧
      (connection.handler.outboundSubstreamEstablishing = true ↔ 0 < connection.outstanding) ∧
      connection.outstanding ≤ 1 :=
  ⟨_, steady_requested, rfl, establishing_iff_request_open steady_requested (by simp)⟩

end Ordered

end Aquadoggo.Network
