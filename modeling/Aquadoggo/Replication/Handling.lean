import Aquadoggo.Replication.Requests
import Aquadoggo.Replication.SessionRuns

/-! A manager in a session under way. `Have`, `SyncDone` and `Entry` change the store only
through `publish` and the table only within the session, and are answered with no request.
`Handled` pairs a manager with what it has answered so far, so that the messages a node
handles in order, each with an `Ok` answer, are a `Run` of it. -/
namespace Aquadoggo.Replication

open Library

/-- What replication relies on p2panda's `publish` for: it keeps the stored entries and stores
the published entry under its hash. -/
structure P2panda.Lawful (p : P2panda) : Prop where
  keeps {store next : Db} {schema : Schema} {entry : EncodedEntry} {operation : EncodedOperation} :
    p.publish store schema entry operation = .ok next → store.entries ⊆ next.entries
  stores {store next : Db} {schema : Schema} {entry : EncodedEntry} {operation : EncodedOperation} :
    p.publish store schema entry operation = .ok next →
      ∃ row ∈ next.entries, row.entryHash = p.entryHash entry

namespace SyncIngest

variable {self : SyncIngest} {store : Db} {entry : EncodedEntry} {operation : EncodedOperation}

theorem handleEntry_eq_ok {next : Db} (h : self.handleEntry store entry operation = .ok next) :
    ∃ schema, self.p2panda.publish store schema entry operation = .ok next := by
  unfold handleEntry at h
  dsimp only at h
  split at h
  · cases h
  split at h
  · split at h
    · cases h
    split at h
    · next schema _ =>
      split at h
      · next hpublish =>
        cases h
        exact ⟨schema, hpublish⟩
      · cases h
    · cases h
  · cases h

theorem handleEntry_eq_duplicateEntry {hash : String}
    (h : self.handleEntry store entry operation = .error (.duplicateEntry hash)) :
    ∃ row ∈ store.entries, row.entryHash = self.p2panda.entryHash entry := by
  unfold handleEntry at h
  dsimp only at h
  split at h
  · next hduplicate => simpa using hduplicate
  split at h
  · split at h
    · cases h
    split at h
    · split at h <;> cases h
    · cases h
  · cases h

theorem handleEntry_eq_schemaNotFound (h : self.handleEntry store entry operation = .error .schemaNotFound) :
    ∃ schemaId, self.p2panda.decodeOperation operation = some schemaId ∧
      self.schemaProvider.get schemaId = none := by
  unfold handleEntry at h
  dsimp only at h
  split at h
  · cases h
  split at h
  · next schemaId hdecode =>
    split at h
    · cases h
    split at h
    · split at h <;> cases h
    · next hget => exact ⟨schemaId, hdecode, Option.eq_none_iff_forall_ne_some.mpr hget⟩
  · cases h

end SyncIngest

namespace Session

/-- A session keeps its target set through `handle_message`, also when it fails. -/
theorem handleMessage_targetSet {self next : Session} {provider : SchemaProvider} {db : Db}
    {message : Message} {out : Except ReplicationError (List Message)}
    (h : self.handleMessage provider db message = some (next, out)) :
    next.targetSet = self.targetSet := by
  obtain ⟨liveMode, -, rfl, -⟩ | ⟨strategy, err, hstrategy, rfl, -⟩ |
      ⟨strategy, result, hstrategy, rfl, -⟩ := handleMessage_cases h
  · simp [targetSet, settle_strategy]
  · simp [targetSet, LogHeightStrategy.handleMessage_targetSet hstrategy]
  · simp [targetSet, flippyFlaggy_fst, LogHeightStrategy.handleMessage_targetSet hstrategy]

/-- A session answers with `Have`, `Entry` and `SyncDone` only, never with a request. -/
theorem handleMessage_answers {self next : Session} {provider : SchemaProvider} {db : Db}
    {message : Message} {messages : List Message}
    (h : self.handleMessage provider db message = some (next, .ok messages)) :
    ∀ answer ∈ messages, answer.isSyncRequest = false := by
  obtain ⟨liveMode, -, -, hout⟩ | ⟨strategy, err, -, -, hout⟩ | ⟨strategy, result, hstrategy, -, hout⟩ :=
    handleMessage_cases h
  · cases hout
    simp
  · cases hout
  · cases hout
    obtain ⟨remoteLogHeights, responses, -, -, -, -, hresponses, hmessages⟩ :=
      LogHeightStrategy.handleMessage_ok hstrategy
    intro answer hanswer
    rw [flippyFlaggy_messages, hmessages] at hanswer
    simp only [List.mem_append] at hanswer
    rcases hanswer with (hhave | hentry) | hdone
    · split at hhave <;> simp_all [LogHeightStrategy.localHave]
    · obtain ⟨_, _, rfl⟩ := LogHeightStrategy.mem_entryResponses hresponses hentry
      rfl
    · split at hdone <;> simp_all

end Session

namespace SyncManager

variable {P : Type} [DecidableEq P]

/-- Every session of the peer replicates schemas the node knows. -/
def KnowsTargetSets (self : SyncManager P) (remotePeer : P) : Prop :=
  ∀ session ∈ self.getSessions remotePeer, ∀ schemaId ∈ session.targetSet.ids,
    (self.ingest.schemaProvider.get schemaId).isSome

/-- A node with one session with the peer knows its target sets when it knows that session's
schemas. -/
theorem knowsTargetSets_of_getSessions {self : SyncManager P} {remotePeer : P} {session : Session}
    (hsessions : self.getSessions remotePeer = [session])
    (hknown : ∀ schemaId ∈ session.targetSet.ids, (self.ingest.schemaProvider.get schemaId).isSome) :
    self.KnowsTargetSets remotePeer := by
  intro other hother
  rw [hsessions, List.mem_singleton] at hother
  subst hother
  exact hknown

/-- What handling messages other than requests keeps of the node it starts from: its identity,
its ingest and its entries, the target sets of its sessions with the peer, and answers that
are no requests. -/
structure Keeps (start : SyncManager P) (remotePeer : P) (state : SyncManager P × List SyncMessage) :
    Prop where
  localPeer : state.1.localPeer = start.localPeer
  ingest : state.1.ingest = start.ingest
  entries : start.store.entries ⊆ state.1.store.entries
  targetSets : ∀ session ∈ state.1.getSessions remotePeer,
    ∃ old ∈ start.getSessions remotePeer, session.targetSet = old.targetSet
  answers : ∀ answer ∈ state.2, answer.message.isSyncRequest = false

section Keeps

variable {start : SyncManager P} {remotePeer : P} {state : SyncManager P × List SyncMessage}

theorem Keeps.init (start : SyncManager P) (remotePeer : P) : Keeps start remotePeer (start, []) :=
  ⟨rfl, rfl, List.Subset.refl _, fun session hmem => ⟨session, hmem, rfl⟩, by simp⟩

theorem Keeps.lawful (h : Keeps start remotePeer state) (hlawful : start.ingest.p2panda.Lawful) :
    state.1.ingest.p2panda.Lawful := by
  rw [h.ingest]
  exact hlawful

theorem Keeps.knowsTargetSets (h : Keeps start remotePeer state)
    (hknown : start.KnowsTargetSets remotePeer) : state.1.KnowsTargetSets remotePeer := by
  intro session hmem schemaId hschema
  obtain ⟨old, hold, htarget⟩ := h.targetSets session hmem
  rw [h.ingest]
  exact hknown old hold schemaId (htarget ▸ hschema)

end Keeps

/-- `insert_and_initialize_session`: the new session has sent our `Have`, and is done at once
when we hold no log. -/
theorem insertAndInitializeSession_eq (self : SyncManager P) (remotePeer : P)
    (sessionId : SessionId) (targetSet : SchemaIdSet) (isLocal : Bool) :
    self.insertAndInitializeSession remotePeer sessionId targetSet isLocal =
      let heights := LogHeightStrategy.localLogHeights self.store
        ((LogHeightStrategy.new targetSet).includedDocumentIds self.ingest.schemaProvider self.store)
      (self.pushSession remotePeer { Session.new sessionId targetSet isLocal supportLiveMode with
          strategy := { LogHeightStrategy.new targetSet with sentHave := true }
          isLocalDone := heights.isEmpty },
        .have heights :: if heights.isEmpty then [.syncDone supportLiveMode] else []) := by
  have hfresh : (Session.new sessionId targetSet isLocal supportLiveMode).Fresh := rfl
  simp only [insertAndInitializeSession]
  rw [Session.initialMessages_of_fresh hfresh]
  rfl

variable [ToString P]

theorem validateEntry_ok {ingest : SyncIngest} {session : Session} {operation : EncodedOperation}
    {u : Unit} (h : validateEntry ingest session (some operation) = .ok u) :
    ∃ schemaId, ingest.p2panda.decodeOperation operation = some schemaId ∧
      schemaId ∈ session.targetSet.ids := by
  simp only [validateEntry] at h
  split at h
  · cases h
  · next schemaId hdecode =>
    cases hcontains : session.targetSet.contains schemaId
    · simp [hcontains] at h
    · exact ⟨schemaId, hdecode, List.contains_iff_mem.mp hcontains⟩

/-- An entry answered `Ok` comes with its operation, which decodes to a schema of the session
it names. The node then published it, already held its hash, or lacks the schema; it sends
nothing back. -/
theorem handleEntry_ok {self next : SyncManager P} {remotePeer : P} {sessionId : SessionId}
    {entry : EncodedEntry} {operation : Option EncodedOperation} {result : SyncResult}
    (h : self.handleEntry remotePeer sessionId entry operation = some (next, .ok result)) :
    result.messages = [] ∧ ∃ session ∈ self.getSessions remotePeer, ∃ op schemaId,
      operation = some op ∧ self.ingest.p2panda.decodeOperation op = some schemaId ∧
      schemaId ∈ session.targetSet.ids ∧
      ((next = { self with store := next.store } ∧
          ∃ schema, self.ingest.p2panda.publish self.store schema entry op = .ok next.store) ∨
        next = self ∧ ((∃ row ∈ self.store.entries, row.entryHash = self.ingest.p2panda.entryHash entry) ∨
          self.ingest.schemaProvider.get schemaId = none)) := by
  unfold handleEntry at h
  split at h
  · cases h
  next session hfind =>
  split at h
  · cases h
  next u hvalid =>
  cases operation with
  | none => cases h
  | some op =>
    obtain ⟨schemaId, hdecode, hmem⟩ := validateEntry_ok hvalid
    have hsession := List.mem_of_find?_eq_some hfind
    simp only [Option.map_some, Option.some.injEq] at h
    split at h
    · next store hingest =>
      cases h
      exact ⟨rfl, session, hsession, op, schemaId, rfl, hdecode, hmem,
        .inl ⟨rfl, SyncIngest.handleEntry_eq_ok hingest⟩⟩
    · next hash hingest =>
      cases h
      exact ⟨rfl, session, hsession, op, schemaId, rfl, hdecode, hmem,
        .inr ⟨rfl, .inl (SyncIngest.handleEntry_eq_duplicateEntry hingest)⟩⟩
    · next hingest =>
      cases h
      obtain ⟨schemaId', hdecode', hget⟩ := SyncIngest.handleEntry_eq_schemaNotFound hingest
      obtain rfl : schemaId' = schemaId := Option.some.inj (hdecode'.symm.trans hdecode)
      exact ⟨rfl, session, hsession, op, schemaId', rfl, hdecode, hmem, .inr ⟨rfl, .inr hget⟩⟩
    · cases h

/-- A `Have` or `SyncDone` answered `Ok` went to the peer's session with that id, which answered
it; the manager stores the updated session and removes it once it is done. -/
theorem handleSessionMessage_ok {self next : SyncManager P} {remotePeer : P} {sessionId : SessionId}
    {message : Message} {result : SyncResult}
    (h : self.handleSessionMessage remotePeer sessionId message = some (next, .ok result)) :
    ∃ sessions session updated messages, self.sessions.lookup remotePeer = some sessions ∧
      sessions.find? (·.id == sessionId) = some session ∧
      session.handleMessage self.ingest.schemaProvider self.store message =
        some (updated, .ok messages) ∧
      result = SyncResult.fromMessages sessionId messages (updated.state == .done) ∧
      next = if updated.state == .done then
        (self.updateSession remotePeer sessions sessionId updated).removeSession remotePeer sessionId
      else self.updateSession remotePeer sessions sessionId updated := by
  unfold handleSessionMessage at h
  split at h
  · cases h
  next sessions hlookup =>
  split at h
  · cases h
  next session hfind =>
  obtain ⟨⟨updated, out⟩, hcall, h⟩ := Option.bind_eq_some_iff.mp h
  cases out with
  | error err => cases h
  | ok messages =>
    cases h
    exact ⟨sessions, session, updated, messages, hlookup, hfind, hcall, rfl, rfl⟩

/-- A session message changes the table only within the session it names, keeps the store, and
is answered by that session, so with no request. -/
theorem handleSessionMessage_keeps {self next : SyncManager P} {remotePeer : P}
    {sessionId : SessionId} {message : Message} {result : SyncResult}
    (h : self.handleSessionMessage remotePeer sessionId message = some (next, .ok result)) :
    next.localPeer = self.localPeer ∧ next.ingest = self.ingest ∧ next.store = self.store ∧
      (∀ session ∈ next.getSessions remotePeer,
        ∃ old ∈ self.getSessions remotePeer, session.targetSet = old.targetSet) ∧
      ∀ answer ∈ result.messages, answer.message.isSyncRequest = false := by
  obtain ⟨sessions, session, updated, messages, hlookup, hfind, hcall, rfl, rfl⟩ :=
    handleSessionMessage_ok h
  have hsessions : self.getSessions remotePeer = sessions := by simp [getSessions, hlookup]
  have hupdated : updated.targetSet = session.targetSet := Session.handleMessage_targetSet hcall
  -- Every session left is an old one or the updated one, which kept its target set.
  have hkept : ∀ kept ∈ (self.updateSession remotePeer sessions sessionId updated).getSessions remotePeer,
      ∃ old ∈ self.getSessions remotePeer, kept.targetSet = old.targetSet := by
    intro kept hkept
    rw [getSessions_updateSession, if_pos rfl] at hkept
    rw [hsessions]
    rcases List.mem_or_eq_of_mem_set hkept with hold | rfl
    · exact ⟨kept, hold, rfl⟩
    · exact ⟨session, List.mem_of_find?_eq_some hfind, hupdated⟩
  have hanswers : ∀ answer ∈ (SyncResult.fromMessages sessionId messages (updated.state == .done)).messages,
      answer.message.isSyncRequest = false := by
    intro answer hanswer
    obtain ⟨message, hmessage, rfl⟩ := List.mem_map.mp hanswer
    exact Session.handleMessage_answers hcall message hmessage
  split
  · refine ⟨by simp [updateSession], by simp [updateSession], by simp [updateSession], ?_, hanswers⟩
    intro kept hmem
    rw [getSessions_removeSession, if_pos rfl] at hmem
    exact hkept kept (List.mem_of_mem_eraseP hmem)
  · exact ⟨rfl, rfl, rfl, hkept, hanswers⟩

variable [LT P] [DecidableRel (α := P) (· < ·)]

/-- What handling a message other than a request keeps: the node's identity and ingest, every
stored entry and the target sets of the peer's sessions; and it answers with no request. -/
theorem handleMessage_keeps {self next : SyncManager P} {remotePeer : P} {message : SyncMessage}
    {result : SyncResult} (hlawful : self.ingest.p2panda.Lawful)
    (hrequest : message.message.isSyncRequest = false)
    (h : self.handleMessage remotePeer message = some (next, .ok result)) :
    next.localPeer = self.localPeer ∧ next.ingest = self.ingest ∧
      self.store.entries ⊆ next.store.entries ∧
      (∀ session ∈ next.getSessions remotePeer,
        ∃ old ∈ self.getSessions remotePeer, session.targetSet = old.targetSet) ∧
      ∀ answer ∈ result.messages, answer.message.isSyncRequest = false := by
  obtain ⟨sessionId, message⟩ := message
  cases message with
  | syncRequest mode targetSet => simp [Message.isSyncRequest] at hrequest
  | entry entry operation =>
    obtain ⟨hmessages, _, -, _, _, -, -, -, hcases⟩ := handleEntry_ok h
    have hanswers : ∀ answer ∈ result.messages, answer.message.isSyncRequest = false := by
      simp [hmessages]
    rcases hcases with ⟨hnext, _, hpublish⟩ | ⟨rfl, -⟩
    · rw [hnext]
      exact ⟨rfl, rfl, hlawful.keeps hpublish, fun session hmem => ⟨session, hmem, rfl⟩, hanswers⟩
    · exact ⟨rfl, rfl, List.Subset.refl _, fun session hmem => ⟨session, hmem, rfl⟩, hanswers⟩
  | syncDone _ | «have» _ =>
    -- Both go to the session they name.
    obtain ⟨hpeer, hingest, hstore, hsessions, hanswers⟩ := handleSessionMessage_keeps h
    exact ⟨hpeer, hingest, hstore ▸ List.Subset.refl _, hsessions, hanswers⟩

/-- An entry answered `Ok` for a session whose schemas the node knows is held afterwards. -/
theorem handleMessage_entry_held {self next : SyncManager P} {remotePeer : P}
    {sessionId : SessionId} {entry : EncodedEntry} {operation : Option EncodedOperation}
    {result : SyncResult} (hlawful : self.ingest.p2panda.Lawful)
    (hknown : self.KnowsTargetSets remotePeer)
    (h : self.handleMessage remotePeer ⟨sessionId, .entry entry operation⟩ = some (next, .ok result)) :
    ∃ row ∈ next.store.entries, row.entryHash = self.ingest.p2panda.entryHash entry := by
  obtain ⟨-, session, hsession, _, schemaId, -, -, hmem, hcases⟩ := handleEntry_ok h
  rcases hcases with ⟨-, _, hpublish⟩ | ⟨rfl, hheld | hunknown⟩
  · exact hlawful.stores hpublish
  · exact hheld
  · -- The schema is in the session's target set, so the node knows it.
    have hknows := hknown session hsession schemaId hmem
    simp [hunknown] at hknows

/-- A request from a peer without sessions opens an inbound session under the request's id,
and the answer is that session's initial messages. -/
theorem handleMessage_request_fresh {self : SyncManager P} {remotePeer : P}
    (hfresh : self.getSessions remotePeer = []) (sessionId : SessionId) (targetSet : SchemaIdSet) :
    self.handleMessage remotePeer ⟨sessionId, .syncRequest .logHeight targetSet⟩ =
      some ((self.insertAndInitializeSession remotePeer sessionId targetSet false).1,
        .ok (SyncResult.fromMessages sessionId
          (self.insertAndInitializeSession remotePeer sessionId targetSet false).2 false)) := by
  simp only [handleMessage, handleSyncRequest, hfresh, List.find?_nil]
  rfl

/-- The responder's side of a session's start: a node without sessions with the peer answers a
request with its `Have` under the request's id, from the one session it opened for the request's
target set, which has sent that `Have`. -/
theorem answers_request_fresh {self next : SyncManager P} {remotePeer : P} {sessionId : SessionId}
    {targetSet : SchemaIdSet} {result : SyncResult} (hfresh : self.getSessions remotePeer = [])
    (h : self.handleMessage remotePeer ⟨sessionId, .syncRequest .logHeight targetSet⟩ =
      some (next, .ok result)) :
    next.store = self.store ∧ next.ingest = self.ingest ∧ next.localPeer = self.localPeer ∧
      ∃ session, next.getSessions remotePeer = [session] ∧ session.id = sessionId ∧
        session.strategy = { LogHeightStrategy.new targetSet with sentHave := true } ∧
        ∃ rest, result.messages = ⟨sessionId,
            (LogHeightStrategy.new targetSet).localHave self.ingest.schemaProvider self.store⟩ :: rest ∧
          ∀ message ∈ rest, message.message.isSyncRequest = false := by
  rw [handleMessage_request_fresh hfresh, insertAndInitializeSession_eq] at h
  dsimp only at h
  cases h
  refine ⟨pushSession_store .., pushSession_ingest .., pushSession_localPeer .., ?_⟩
  rw [getSessions_pushSession, if_pos rfl, hfresh, List.nil_append]
  refine ⟨_, rfl, rfl, rfl, _, rfl, ?_⟩
  · intro message hmem
    obtain ⟨message, hmessage, rfl⟩ := List.mem_map.mp hmem
    split at hmessage <;> simp_all

/-- A `Have` answered `Ok` went to the peer's session with that id, whose strategy had not
received one: it answers with our `Have` unless that is out, the entries the remote lacks, and
`SyncDone` unless that is out. -/
theorem handleMessage_have {self next : SyncManager P} {remotePeer : P} {sessionId : SessionId}
    {logHeights : List LogHeights} {result : SyncResult}
    (h : self.handleMessage remotePeer ⟨sessionId, .have logHeights⟩ = some (next, .ok result)) :
    ∃ session ∈ self.getSessions remotePeer, session.id = sessionId ∧ ∃ responses,
      session.strategy.entryResponses self.ingest.schemaProvider self.store logHeights =
        some responses ∧
      result.messages = toSyncMessages sessionId
        ((if session.strategy.sentHave then []
            else [session.strategy.localHave self.ingest.schemaProvider self.store]) ++
          responses ++ if session.isLocalDone then [] else [.syncDone session.isLocalLiveMode]) := by
  obtain ⟨sessions, session, updated, messages, hlookup, hfind, hcall, rfl, -⟩ :=
    handleSessionMessage_ok h
  have hmem : session ∈ self.getSessions remotePeer := by
    simpa [getSessions, hlookup] using List.mem_of_find?_eq_some hfind
  refine ⟨session, hmem, by simpa using List.find?_some hfind, ?_⟩
  obtain ⟨_, hmessage, -⟩ | ⟨_, _, -, -, hout⟩ | ⟨strategy, result, hstrategy, -, hout⟩ :=
    Session.handleMessage_cases hcall
  · cases hmessage
  · cases hout
  · obtain ⟨_, responses, hheights, -, rfl, hdone, hresponses, hmessages⟩ :=
      LogHeightStrategy.handleMessage_ok hstrategy
    cases hheights
    cases hout
    refine ⟨responses, hresponses, ?_⟩
    rw [SyncResult.fromMessages, Session.flippyFlaggy_messages, hmessages, hdone]
    cases session.isLocalDone <;> rfl

/-- One message handled with an `Ok` answer, next to everything answered so far. -/
inductive Handled (remotePeer : P) :
    SyncManager P × List SyncMessage → SyncMessage → SyncManager P × List SyncMessage → Prop where
  | ok {self next : SyncManager P} {answered : List SyncMessage} {message : SyncMessage}
      {result : SyncResult} (h : self.handleMessage remotePeer message = some (next, .ok result)) :
      Handled remotePeer (self, answered) message (next, answered ++ result.messages)

theorem Keeps.step {start : SyncManager P} {remotePeer : P}
    {state next : SyncManager P × List SyncMessage} {message : SyncMessage} (hlawful : start.ingest.p2panda.Lawful) (h : Keeps start remotePeer state)
    (hrequest : message.message.isSyncRequest = false) (hstep : Handled remotePeer state message next) :
    Keeps start remotePeer next := by
  cases hstep with
  | ok hhandled =>
    obtain ⟨hpeer, hingest, hentries, htargets, hanswers⟩ :=
      handleMessage_keeps (h.lawful hlawful) hrequest hhandled
    refine ⟨hpeer.trans h.localPeer, hingest.trans h.ingest, List.Subset.trans h.entries hentries, ?_, ?_⟩
    · intro session hmem
      obtain ⟨old, hold, htarget⟩ := htargets session hmem
      obtain ⟨first, hfirst, htarget'⟩ := h.targetSets old hold
      exact ⟨first, hfirst, htarget.trans htarget'⟩
    · intro answer hanswer
      rcases List.mem_append.mp hanswer with hold | hnew
      · exact h.answers answer hold
      · exact hanswers answer hnew

/-- A node handling messages other than requests keeps what `Keeps` lists. -/
theorem handled_keeps {start : SyncManager P} {remotePeer : P} {messages : List SyncMessage}
    {state : SyncManager P × List SyncMessage} (hlawful : start.ingest.p2panda.Lawful)
    (run : Run (Handled remotePeer) (start, []) messages state)
    (hrequests : ∀ message ∈ messages, message.message.isSyncRequest = false) :
    Keeps start remotePeer state :=
  run.preserved_by (Keeps start remotePeer) (fun message => message.message.isSyncRequest = false)
    (fun _ _ _ hrequest h hstep => h.step hlawful hrequest hstep) hrequests (Keeps.init start remotePeer)

/-- A node that knows the schemas of its sessions with the peer holds every entry it handled. -/
theorem handled_holds_entries {start : SyncManager P} {remotePeer : P} {messages : List SyncMessage}
    {state : SyncManager P × List SyncMessage} (hlawful : start.ingest.p2panda.Lawful)
    (hknown : start.KnowsTargetSets remotePeer)
    (run : Run (Handled remotePeer) (start, []) messages state)
    (hrequests : ∀ message ∈ messages, message.message.isSyncRequest = false) :
    ∀ message ∈ messages, ∀ entry operation, message.message = .entry entry operation →
      ∃ row ∈ state.1.store.entries, row.entryHash = start.ingest.p2panda.entryHash entry := by
  refine (run.preserved_with_labels (Keeps start remotePeer)
    (fun message state => ∀ entry operation, message.message = .entry entry operation →
      ∃ row ∈ state.1.store.entries, row.entryHash = start.ingest.p2panda.entryHash entry)
    (fun message => message.message.isSyncRequest = false)
    (fun _ _ _ hrequest h hstep => h.step hlawful hrequest hstep) ?_ ?_ hrequests
    (Keeps.init start remotePeer)).2
  · -- The step that handles an entry stores it.
    intro s message t _ h hstep entry operation hentry
    cases hstep with
    | ok hhandled =>
      obtain ⟨sessionId, message⟩ := message
      cases hentry
      rw [← h.ingest]
      exact handleMessage_entry_held (h.lawful hlawful) (h.knowsTargetSets hknown) hhandled
  · -- Later steps keep every stored entry.
    intro k s message t hrequest h hheld hstep entry operation hentry
    obtain ⟨row, hrow, hhash⟩ := hheld entry operation hentry
    cases hstep with
    | ok hhandled =>
      exact ⟨row, (handleMessage_keeps (h.lawful hlawful) hrequest hhandled).2.2.1 hrow, hhash⟩

/-- A node's answers only grow. -/
theorem answered_prefix {remotePeer : P} {begin state : SyncManager P × List SyncMessage}
    {messages : List SyncMessage} (run : Run (Handled remotePeer) begin messages state) :
    begin.2 <+: state.2 := by
  refine run.invariant (fun state => begin.2 <+: state.2) ?_ (List.prefix_refl _)
  intro s message t hprefix hstep
  cases hstep with
  | ok _ => exact hprefix.trans (List.prefix_append _ _)

/-- A node whose only session with the peer is `session` answers a first message that is a
`Have` for that session as `handleMessage_have` says, before anything else. -/
theorem answers_first_have {self : SyncManager P} {remotePeer : P} {session : Session}
    {logHeights : List LogHeights} {rest : List SyncMessage} {state : SyncManager P × List SyncMessage}
    (hsessions : self.getSessions remotePeer = [session])
    (run : Run (Handled remotePeer) (self, []) (⟨session.id, .have logHeights⟩ :: rest) state) :
    ∃ responses, session.strategy.entryResponses self.ingest.schemaProvider self.store logHeights =
        some responses ∧
      toSyncMessages session.id
        ((if session.strategy.sentHave then []
            else [session.strategy.localHave self.ingest.schemaProvider self.store]) ++
          responses ++ if session.isLocalDone then [] else [.syncDone session.isLocalLiveMode]) <+:
        state.2 := by
  obtain ⟨next, hfirst, rest⟩ := run.cons_inv
  cases hfirst with
  | ok handled =>
    obtain ⟨found, hfound, -, responses, hresponses, hmessages⟩ := handleMessage_have handled
    rw [hsessions, List.mem_singleton] at hfound
    subst hfound
    refine ⟨responses, hresponses, ?_⟩
    rw [← hmessages]
    simpa using answered_prefix rest

end SyncManager

end Aquadoggo.Replication
