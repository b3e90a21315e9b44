import Aquadoggo.Replication.SessionTable

/-! The replies a manager sends when it accepts an inbound `SyncRequest`. There are three
ways in (a fresh request, a request reusing one of our ids, a request for the target set of
one of our sessions), and each tags its replies with an id of its own choosing: the request's
id, the id of the session it collides with, or the id under which a dropped request of ours
is opened again. -/
namespace Aquadoggo.Replication

open Library

@[simp] theorem sessionId_of_mem_toSyncMessages {sessionId : SessionId} {messages : List Message}
    {message : SyncMessage} (h : message ∈ toSyncMessages sessionId messages) :
    message.sessionId = sessionId := by
  obtain ⟨_, -, rfl⟩ := List.mem_map.mp h
  rfl

@[simp] theorem Session.new_targetSet (id : SessionId) (targetSet : SchemaIdSet)
    (isLocal liveMode : Bool) : (Session.new id targetSet isLocal liveMode).targetSet = targetSet :=
  rfl

namespace SyncManager

variable {P : Type} [DecidableEq P]

/-- A `SyncRequest` a manager sent under `id` that its table holds as a local session of
the peer. -/
def Reinitiates (self : SyncManager P) (remotePeer : P) (message : SyncMessage) : Prop :=
  ∃ session ∈ self.getSessions remotePeer, session.isLocal ∧ session.id = message.sessionId ∧
    message.message = .syncRequest session.mode session.targetSet

theorem isModeSupported_ok {mode : Mode} {u : Unit} (h : isModeSupported mode = .ok u) :
    mode = .logHeight := by
  cases mode <;> simp_all [isModeSupported, supportedModes]

/-- What `initiate_session` returns on success: the one request, under the id it registered
a local session with. -/
theorem initiateSession_ok {self next : SyncManager P} {remotePeer : P} {targetSet : SchemaIdSet}
    {mode : Mode} {messages : List SyncMessage}
    (h : self.initiateSession remotePeer targetSet mode = (next, .ok messages)) :
    mode = .logHeight ∧ ∃ sessionId, next = self.insertSession remotePeer sessionId targetSet true ∧
      messages = [⟨sessionId, .syncRequest mode targetSet⟩] := by
  unfold initiateSession at h
  cases hmode : isModeSupported mode with
  | error err => simp [hmode] at h
  | ok u =>
    refine ⟨isModeSupported_ok hmode, ?_⟩
    cases hfind : (self.getSessions remotePeer).find? (·.targetSet == targetSet) with
    | some session => simp [hmode, hfind] at h
    | none =>
      simp only [hmode, hfind, Prod.mk.injEq, Except.ok.injEq] at h
      exact ⟨_, h.1.symm, h.2.symm⟩

theorem reinitiates_of_initiateSession {self next : SyncManager P} {remotePeer : P}
    {targetSet : SchemaIdSet} {mode : Mode} {messages : List SyncMessage}
    (h : self.initiateSession remotePeer targetSet mode = (next, .ok messages)) :
    ∀ message ∈ messages, next.Reinitiates remotePeer message := by
  obtain ⟨rfl, sessionId, rfl, rfl⟩ := initiateSession_ok h
  intro message hmessage
  rw [List.mem_singleton] at hmessage
  subst hmessage
  refine ⟨Session.new sessionId targetSet true supportLiveMode, ?_, rfl, rfl, rfl⟩
  simp [insertSession, getSessions_pushSession]

variable [LT P] [DecidableRel (α := P) (· < ·)]

/-- The replies to a request reusing the id of `existing`: under that id, or the request
that opens our dropped session again. -/
theorem handleDuplicateSession_replies {self next : SyncManager P} {remotePeer : P}
    {targetSet : SchemaIdSet} {existing : Session} {result : SyncResult}
    (h : self.handleDuplicateSession remotePeer targetSet existing = (next, .ok result)) :
    ∀ message ∈ result.messages,
      message.sessionId = existing.id ∨ next.Reinitiates remotePeer message := by
  unfold handleDuplicateSession at h
  cases hlocal : existing.isLocal
  · simp [hlocal] at h
  · -- Only a pending session of ours is dropped, and only by the smaller peer.
    cases hstate : existing.state
    case established | done => simp [hlocal, hstate] at h
    case pending =>
      by_cases hlt : self.localPeer < remotePeer
      · simp only [hlocal, hstate, hlt, if_true, Bool.not_true, Bool.false_eq_true, if_false] at h
        split at h
        · split at h
          · cases h
          · rename_i hinit
            simp only [Prod.mk.injEq, Except.ok.injEq] at h
            obtain ⟨rfl, rfl⟩ := h
            intro message hmessage
            rcases List.mem_append.mp hmessage with hold | hnew
            · exact .inl (sessionId_of_mem_toSyncMessages hold)
            · exact .inr (reinitiates_of_initiateSession hinit message hnew)
        · simp only [Prod.mk.injEq, Except.ok.injEq] at h
          obtain ⟨-, rfl⟩ := h
          exact fun _ hmessage => .inl (sessionId_of_mem_toSyncMessages hmessage)
      · simp only [hlocal, hstate, hlt, if_false, Bool.not_true, Bool.false_eq_true, Prod.mk.injEq,
          Except.ok.injEq] at h
        obtain ⟨-, rfl⟩ := h
        simp

/-- The replies to a request for the target set of `existing` carry the id of `existing`,
which must be one of our own sessions. -/
theorem handleDuplicateTargetSet_replies {self next : SyncManager P} {remotePeer : P}
    {sessionId : SessionId} {existing : Session} {result : SyncResult}
    (h : self.handleDuplicateTargetSet remotePeer sessionId existing = (next, .ok result)) :
    existing.isLocal ∧ ∀ message ∈ result.messages, message.sessionId = existing.id := by
  unfold handleDuplicateTargetSet at h
  cases hlocal : existing.isLocal
  · simp [hlocal] at h
  · refine ⟨rfl, ?_⟩
    -- As for a duplicate id, only a pending session of ours is dropped, by the smaller peer.
    cases hstate : existing.state
    case established | done => simp [hlocal, hstate] at h
    case pending =>
      by_cases hlt : self.localPeer < remotePeer
      · simp only [hlocal, hstate, hlt, if_true, Bool.not_true, Bool.false_eq_true, if_false,
          Prod.mk.injEq, Except.ok.injEq] at h
        obtain ⟨-, rfl⟩ := h
        exact fun _ hmessage => sessionId_of_mem_toSyncMessages hmessage
      · simp only [hlocal, hstate, hlt, if_false, Bool.not_true, Bool.false_eq_true, Prod.mk.injEq,
          Except.ok.injEq] at h
        obtain ⟨-, rfl⟩ := h
        simp

/-- Where the replies to an accepted `SyncRequest` carry their ids: under the request's id,
under the id of a local session of the peer with the requested target set, or as a request
that opens a dropped session of ours again under the id the table now holds it with. -/
theorem handleSyncRequest_replies {self next : SyncManager P} {remotePeer : P} {mode : Mode}
    {sessionId : SessionId} {targetSet : SchemaIdSet} {result : SyncResult}
    (h : self.handleSyncRequest remotePeer mode sessionId targetSet = (next, .ok result)) :
    ∀ message ∈ result.messages, message.sessionId = sessionId ∨
      (∃ existing ∈ self.getSessions remotePeer, existing.isLocal ∧
        existing.targetSet = targetSet ∧ message.sessionId = existing.id) ∨
      next.Reinitiates remotePeer message := by
  intro message hmessage
  unfold handleSyncRequest at h
  split at h
  · cases h
  · dsimp only at h
    split at h
    · -- A request with the id of one of our sessions: that id is the request's.
      rename_i existing hfind
      have hid : existing.id = sessionId := by simpa using List.find?_some hfind
      rcases handleDuplicateSession_replies h message hmessage with hold | hnew
      · exact .inl (hold.trans hid)
      · exact .inr (.inr hnew)
    · split at h
      · -- A request for the target set of one of our sessions, under the request's id.
        rename_i existing hfind
        obtain ⟨hlocal, htagged⟩ := handleDuplicateTargetSet_replies h
        have htarget : existing.targetSet = targetSet := by simpa using List.find?_some hfind
        exact .inr (.inl ⟨existing, List.mem_of_find?_eq_some hfind, hlocal, htarget,
          htagged message hmessage⟩)
      · obtain ⟨-, hresult⟩ := Prod.mk.inj h
        cases Except.ok.inj hresult
        exact .inl (sessionId_of_mem_toSyncMessages hmessage)

/-- When no local session of the peer holds the requested target set under another id, every
reply to an accepted request is tagged with the request's id or re-initiates a dropped
session of ours. -/
theorem accepted_request_replies_tagged {self next : SyncManager P} {remotePeer : P} {mode : Mode}
    {sessionId : SessionId} {targetSet : SchemaIdSet} {result : SyncResult}
    (h : self.handleSyncRequest remotePeer mode sessionId targetSet = (next, .ok result))
    (hunique : ∀ existing ∈ self.getSessions remotePeer, existing.isLocal →
      existing.targetSet = targetSet → existing.id = sessionId) :
    ∀ message ∈ result.messages,
      message.sessionId = sessionId ∨ next.Reinitiates remotePeer message := by
  intro message hmessage
  rcases handleSyncRequest_replies h message hmessage with
    hrequest | ⟨existing, hmem, hlocal, htarget, hid⟩ | hnew
  · exact .inl hrequest
  · exact .inl (hid.trans (hunique existing hmem hlocal htarget))
  · exact .inr hnew

end SyncManager

/-- We asked peer `1` for a target set under id `0`; peer `1` asks us for the same target set
under id `1`. We are the smaller peer, so we drop our session and register the inbound one
under `1`, but the replies of that session go out under `0`, the id of the dropped one. -/
theorem duplicate_target_set_replies_under_dropped_id :
    ∃ self next result, Run SyncManager.Step (SyncManager.new Db.empty bareIngest (0 : Nat))
      [.initiateSession 1 ⟨[.blob 1]⟩ .logHeight] self ∧
      self.handleMessage 1 ⟨1, .syncRequest .logHeight ⟨[.blob 1]⟩⟩ = some (next, .ok result) ∧
      (next.getSessions 1).map (fun session => (session.id, session.isLocal)) = [(1, false)] ∧
      result.messages = [⟨0, .have []⟩, ⟨0, .syncDone false⟩] := by
  refine ⟨_, _, _, Run.single rfl, rfl, ?_, ?_⟩
  · decide
  · decide

end Aquadoggo.Replication
