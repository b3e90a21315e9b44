import Aquadoggo.Replication.LogHeight

/-! `diff_log_heights` is the difference of two sets of log heights: for each local log the
remote lacks entries of, the first sequence number it lacks, one pair per author with the
author's logs in order of their ids. The body of the loop over local authors is
`remoteNeedsOf`; its two branches (an author the remote does not know, a known one) compute the
same per-log rule, `remoteNeedsLogs`. -/
namespace Aquadoggo.Replication

open Library

/-- The pair one local author adds to `diff_log_heights`, if any: the body of its loop. -/
def remoteNeedsOf (remoteLogHeights : List LogHeights) (author : LogHeights) :
    Option LogHeights :=
  let localAuthorLogs := collectMap author.2
  match remoteLogHeights.lookup author.1 with
  | some remoteAuthorLogs =>
    let remoteNeedsLogs := (localAuthorLogs.filterMap fun (logId, seqNum) =>
      remoteRequiresEntries logId seqNum (collectMap remoteAuthorLogs)).mergeSort logHeightLe
    if remoteNeedsLogs.isEmpty then none else some (author.1, remoteNeedsLogs)
  | none =>
    some (author.1, (localAuthorLogs.map fun (logId, _) => (logId, 1)).mergeSort logHeightLe)

theorem diffLogHeights_eq_filterMap
    (localLogHeights remoteLogHeights : List LogHeights) :
    diffLogHeights localLogHeights remoteLogHeights =
      localLogHeights.filterMap (remoteNeedsOf remoteLogHeights) := by
  unfold diffLogHeights
  rw [List.foldl_ext _
      (fun remoteNeeds author => remoteNeeds ++ (remoteNeedsOf remoteLogHeights author).toList),
    foldl_push_eq_filterMap, List.nil_append]
  intro remoteNeeds ⟨author, logs⟩ _
  unfold remoteNeedsOf
  cases hlookup : remoteLogHeights.lookup author with
  | none => simp [hlookup]
  | some remoteAuthorLogs =>
    simp only [hlookup]
    split <;> simp_all

/-- The logs of one author the remote lacks, each from its first missing sequence number,
unsorted: what both branches of the loop body compute. -/
def remoteNeedsLogs (remoteLogHeights : List LogHeights) (author : LogHeights) :
    List (LogId × SeqNum) :=
  (collectMap author.2).filterMap fun (logId, seqNum) =>
    remoteRequiresEntries logId seqNum (collectMap ((remoteLogHeights.lookup author.1).getD []))

/-- The two branches of the loop body agree: an author the remote does not know is diffed as
one whose logs the remote all lacks. -/
theorem remoteNeedsOf_eq (remoteLogHeights : List LogHeights) (author : LogHeights) :
    remoteNeedsOf remoteLogHeights author =
      if (remoteNeedsLogs remoteLogHeights author).isEmpty &&
        (remoteLogHeights.lookup author.1).isSome then none
      else some (author.1, (remoteNeedsLogs remoteLogHeights author).mergeSort logHeightLe) := by
  unfold remoteNeedsOf remoteNeedsLogs
  cases hlookup : remoteLogHeights.lookup author.1 with
  | none =>
    -- Against an empty remote map every log is needed from its first entry.
    have hrule : ∀ logId seqNum,
        remoteRequiresEntries logId seqNum (collectMap []) = some (logId, 1) := fun _ _ => rfl
    simp [hrule]
  | some remoteAuthorLogs =>
    simp [← List.length_eq_zero_iff]

theorem remoteRequiresEntries_eq_some {logId l : LogId} {seqNum f : SeqNum}
    {remoteLogHeights : List (LogId × SeqNum)} :
    remoteRequiresEntries logId seqNum remoteLogHeights = some (l, f) ↔ l = logId ∧
      (remoteLogHeights.lookup logId = none ∧ f = 1 ∨
        ∃ r, remoteLogHeights.lookup logId = some r ∧ r < seqNum ∧ f = r + 1) := by
  unfold remoteRequiresEntries
  cases remoteLogHeights.lookup logId with
  | none => simp [eq_comm]
  | some r =>
    by_cases hlt : r < seqNum
    · simp [hlt, eq_comm]
    · simp [hlt]

theorem remoteNeedsOf_eq_some {remoteLogHeights : List LogHeights}
    {author needs : LogHeights}
    (h : remoteNeedsOf remoteLogHeights author = some needs) :
    needs = (author.1, (remoteNeedsLogs remoteLogHeights author).mergeSort logHeightLe) := by
  rw [remoteNeedsOf_eq] at h
  split at h
  · cases h
  · exact (Option.some.inj h).symm

theorem remoteNeedsOf_of_mem {remoteLogHeights : List LogHeights}
    {author : LogHeights} {log : LogId × SeqNum}
    (h : log ∈ remoteNeedsLogs remoteLogHeights author) :
    remoteNeedsOf remoteLogHeights author =
      some (author.1, (remoteNeedsLogs remoteLogHeights author).mergeSort logHeightLe) := by
  have hne : (remoteNeedsLogs remoteLogHeights author).isEmpty = false :=
    List.isEmpty_eq_false_iff_exists_mem.mpr ⟨log, h⟩
  rw [remoteNeedsOf_eq, hne, Bool.false_and, if_neg Bool.false_ne_true]

theorem remoteNeedsLogs_keys_nodup (remoteLogHeights : List LogHeights)
    (author : LogHeights) :
    ((remoteNeedsLogs remoteLogHeights author).map (·.1)).Nodup := by
  refine (keys_filterMap_sublist ?_ _).nodup (keys_nodup_collectMap _)
  rintro ⟨logId, seqNum⟩ ⟨l, f⟩ h
  exact (remoteRequiresEntries_eq_some.mp h).1

-- `omega` needs the abbreviations `LogId` and `SeqNum` unfolded to see `Nat`.
theorem logHeightLe_trans (a b c : LogId × SeqNum) (hab : logHeightLe a b)
    (hbc : logHeightLe b c) : logHeightLe a c := by
  simp only [logHeightLe, LogId, SeqNum, Bool.or_eq_true, decide_eq_true_eq, Bool.and_eq_true,
    beq_iff_eq] at *
  omega

theorem logHeightLe_total (a b : LogId × SeqNum) : logHeightLe a b || logHeightLe b a := by
  simp only [logHeightLe, LogId, SeqNum, Bool.or_eq_true, decide_eq_true_eq, Bool.and_eq_true,
    beq_iff_eq]
  omega

theorem lt_of_logHeightLe {a b : LogId × SeqNum} (hle : logHeightLe a b) (hne : a.1 ≠ b.1) :
    a.1 < b.1 := by
  simp only [logHeightLe, Bool.or_eq_true, decide_eq_true_eq, Bool.and_eq_true, beq_iff_eq] at hle
  rcases hle with hlt | ⟨heq, -⟩
  · exact hlt
  · exact absurd heq hne

/-- Sorted as `Vec<(LogId, SeqNum)>::sort` sorts, logs with distinct ids are in increasing
order of their ids. -/
theorem pairwise_logId_lt_mergeSort {logs : List (LogId × SeqNum)}
    (hkeys : (logs.map (·.1)).Nodup) :
    (logs.mergeSort logHeightLe).Pairwise (fun a b => a.1 < b.1) := by
  have hsorted := List.pairwise_mergeSort logHeightLe_trans logHeightLe_total logs
  have hdistinct : ((logs.mergeSort logHeightLe).map (·.1)).Nodup :=
    ((List.mergeSort_perm logs _).map _).nodup_iff.mpr hkeys
  rw [List.Nodup, List.pairwise_map] at hdistinct
  exact (hsorted.and hdistinct).imp fun ⟨hle, hne⟩ => lt_of_logHeightLe hle hne


theorem remoteNeedsOf_fst {remoteLogHeights : List LogHeights}
    {author needs : LogHeights}
    (h : remoteNeedsOf remoteLogHeights author = some needs) : needs.1 = author.1 := by
  rw [remoteNeedsOf_eq_some h]

theorem mem_diffLogHeights {localLogHeights remoteLogHeights : List LogHeights}
    {k : PublicKey} {logs : List (LogId × SeqNum)} :
    (k, logs) ∈ diffLogHeights localLogHeights remoteLogHeights ↔
      ∃ localLogs, (k, localLogs) ∈ localLogHeights ∧
        remoteNeedsOf remoteLogHeights (k, localLogs) = some (k, logs) := by
  rw [diffLogHeights_eq_filterMap, List.mem_filterMap]
  constructor
  · rintro ⟨⟨k', localLogs⟩, hmem, hsome⟩
    obtain rfl : k = k' := remoteNeedsOf_fst hsome
    exact ⟨localLogs, hmem, hsome⟩
  · rintro ⟨localLogs, hmem, hsome⟩
    exact ⟨(k, localLogs), hmem, hsome⟩

theorem diffLogHeights_keys_nodup {localLogHeights : List LogHeights}
    (hlocal : (localLogHeights.map (·.1)).Nodup) (remoteLogHeights : List LogHeights) :
    ((diffLogHeights localLogHeights remoteLogHeights).map (·.1)).Nodup := by
  rw [diffLogHeights_eq_filterMap]
  exact (keys_filterMap_sublist (fun _ _ => remoteNeedsOf_fst) _).nodup hlocal

theorem diffLogHeights_sorted
    (localLogHeights remoteLogHeights : List LogHeights)
    {k : PublicKey} {logs : List (LogId × SeqNum)}
    (hmem : (k, logs) ∈ diffLogHeights localLogHeights remoteLogHeights) :
    logs.Pairwise (fun a b => a.1 < b.1) := by
  obtain ⟨localLogs, -, hsome⟩ := mem_diffLogHeights.mp hmem
  cases remoteNeedsOf_eq_some hsome
  exact pairwise_logId_lt_mergeSort (remoteNeedsLogs_keys_nodup _ _)

/-- The remote lacks log `l` of author `k`, which we hold up to `h`, from `f` on: it has no
such log and `f` is the first sequence number, or it holds the log up to `r < h` and
`f = r + 1`. -/
def RemoteLacks (remoteLogHeights : List LogHeights) (k : PublicKey) (l : LogId) (h f : SeqNum) :
    Prop :=
  (∀ remoteLogs, (k, remoteLogs) ∈ remoteLogHeights → ∀ r, (l, r) ∉ remoteLogs) ∧ f = 1 ∨
    ∃ remoteLogs r, (k, remoteLogs) ∈ remoteLogHeights ∧ (l, r) ∈ remoteLogs ∧ r < h ∧ f = r + 1

section Maps

variable {remoteLogHeights : List LogHeights}
  (hremote : (remoteLogHeights.map (·.1)).Nodup)
  (hremoteLogs : ∀ k logs, (k, logs) ∈ remoteLogHeights → (logs.map (·.1)).Nodup)
include hremote hremoteLogs

theorem remoteHeight_eq_some (k : PublicKey) (l : LogId) (r : SeqNum) :
    (collectMap ((remoteLogHeights.lookup k).getD [])).lookup l = some r ↔
      ∃ remoteLogs, (k, remoteLogs) ∈ remoteLogHeights ∧ (l, r) ∈ remoteLogs := by
  cases hlookup : remoteLogHeights.lookup k with
  | none =>
    constructor
    · intro h
      simp [collectMap] at h
    · rintro ⟨remoteLogs, hmem, -⟩
      rw [← lookup_eq_some_iff_mem hremote, hlookup] at hmem
      cases hmem
  | some remoteLogs =>
    have hmem := (lookup_eq_some_iff_mem hremote k remoteLogs).mp hlookup
    rw [Option.getD_some, lookup_eq_some_iff_mem (keys_nodup_collectMap _),
      mem_collectMap (hremoteLogs k remoteLogs hmem)]
    constructor
    · exact fun h => ⟨remoteLogs, hmem, h⟩
    · rintro ⟨remoteLogs', hmem', h⟩
      have hsame := (lookup_eq_some_iff_mem hremote k remoteLogs').mpr hmem'
      rw [hlookup] at hsame
      cases hsame
      exact h

theorem mem_remoteNeedsLogs {k : PublicKey} {localLogs : List (LogId × SeqNum)}
    (hlocal : (localLogs.map (·.1)).Nodup) (l : LogId) (f : SeqNum) :
    (l, f) ∈ remoteNeedsLogs remoteLogHeights (k, localLogs) ↔ ∃ h, (l, h) ∈ localLogs ∧
      RemoteLacks remoteLogHeights k l h f := by
  have hheight := remoteHeight_eq_some hremote hremoteLogs k l
  unfold remoteNeedsLogs
  simp only [List.mem_filterMap, Prod.exists, mem_collectMap hlocal, remoteRequiresEntries_eq_some]
  constructor
  · rintro ⟨l', h, hmem, rfl, hcase⟩
    refine ⟨h, hmem, ?_⟩
    rcases hcase with ⟨hnone, rfl⟩ | ⟨r, hsome, hlt, rfl⟩
    · refine .inl ⟨fun remoteLogs hk r hr => ?_, rfl⟩
      have := (hheight r).mpr ⟨remoteLogs, hk, hr⟩
      simp_all
    · obtain ⟨remoteLogs, hk, hr⟩ := (hheight r).mp hsome
      exact .inr ⟨remoteLogs, r, hk, hr, hlt, rfl⟩
  · rintro ⟨h, hmem, hcase⟩
    refine ⟨l, h, hmem, rfl, ?_⟩
    rcases hcase with ⟨habsent, rfl⟩ | ⟨remoteLogs, r, hk, hr, hlt, rfl⟩
    · refine .inl ⟨Option.eq_none_iff_forall_ne_some.mpr fun r hsome => ?_, rfl⟩
      obtain ⟨remoteLogs, hk, hr⟩ := (hheight r).mp hsome
      exact habsent remoteLogs hk r hr
    · exact .inr ⟨r, (hheight r).mpr ⟨remoteLogs, hk, hr⟩, hlt, rfl⟩

theorem mem_logs_diffLogHeights_iff {localLogHeights : List LogHeights}
    (hlocalLogs : ∀ author ∈ localLogHeights, (author.2.map (·.1)).Nodup) (k : PublicKey)
    (l : LogId) (f : SeqNum) :
    (∃ logs, (k, logs) ∈ diffLogHeights localLogHeights remoteLogHeights ∧ (l, f) ∈ logs) ↔
      ∃ localLogs h, (k, localLogs) ∈ localLogHeights ∧ (l, h) ∈ localLogs ∧
        RemoteLacks remoteLogHeights k l h f := by
  constructor
  · rintro ⟨logs, hmem, hlog⟩
    obtain ⟨localLogs, hk, hsome⟩ := mem_diffLogHeights.mp hmem
    cases remoteNeedsOf_eq_some hsome
    rw [List.mem_mergeSort] at hlog
    obtain ⟨h, hl, hcase⟩ :=
      (mem_remoteNeedsLogs hremote hremoteLogs (hlocalLogs _ hk) l f).mp hlog
    exact ⟨localLogs, h, hk, hl, hcase⟩
  · rintro ⟨localLogs, h, hk, hl, hcase⟩
    have hlog :=
      (mem_remoteNeedsLogs hremote hremoteLogs (hlocalLogs _ hk) l f).mpr ⟨h, hl, hcase⟩
    refine ⟨_, mem_diffLogHeights.mpr ⟨localLogs, hk, remoteNeedsOf_of_mem hlog⟩, ?_⟩
    rw [List.mem_mergeSort]
    exact hlog

theorem diffLogHeights_ne_nil {localLogHeights : List LogHeights}
    (hlocalLogs : ∀ author ∈ localLogHeights, (author.2.map (·.1)).Nodup) {k : PublicKey}
    {logs : List (LogId × SeqNum)}
    (hmem : (k, logs) ∈ diffLogHeights localLogHeights remoteLogHeights) :
    logs ≠ [] ∨ (k, []) ∈ localLogHeights ∧ ∀ remoteLogs, (k, remoteLogs) ∉ remoteLogHeights := by
  obtain ⟨localLogs, hk, hsome⟩ := mem_diffLogHeights.mp hmem
  by_cases hnil : logs = []
  · subst hnil
    have hneeds : remoteNeedsLogs remoteLogHeights (k, localLogs) = [] := by
      have hlength := congrArg (List.length ∘ Prod.snd) (remoteNeedsOf_eq_some hsome)
      simpa using hlength.symm
    -- An empty list is only pushed for an author the remote does not know.
    have hunknown : ∀ remoteLogs, (k, remoteLogs) ∉ remoteLogHeights := by
      rw [remoteNeedsOf_eq, hneeds] at hsome
      simpa using hsome
    refine .inr ⟨?_, hunknown⟩
    cases localLogs with
    | nil => exact hk
    | cons log rest =>
      have hneeded := (mem_remoteNeedsLogs hremote hremoteLogs (hlocalLogs _ hk) log.1 1).mpr
        ⟨log.2, List.mem_cons_self,
          .inl ⟨fun remoteLogs hr => absurd hr (hunknown remoteLogs), rfl⟩⟩
      rw [hneeds] at hneeded
      cases hneeded
  · exact .inl hnil

end Maps

/-- For maps with distinct keys and distinct log ids per key, the diff holds `(k, l, f)`
exactly when the remote lacks log `l` of author `k` from `f` on, has each author at most
once, never an empty list unless the author's local list is empty and the remote does not
know the author, and each author's logs in increasing order of ids. -/
theorem diffLogHeights_exact
    (localLogHeights remoteLogHeights : List LogHeights)
    (hlocal : (localLogHeights.map (·.1)).Nodup) (hremote : (remoteLogHeights.map (·.1)).Nodup)
    (hlocalLogs : ∀ author ∈ localLogHeights, (author.2.map (·.1)).Nodup)
    (hremoteLogs : ∀ author ∈ remoteLogHeights, (author.2.map (·.1)).Nodup) :
    (∀ k l f,
      (∃ logs, (k, logs) ∈ diffLogHeights localLogHeights remoteLogHeights ∧ (l, f) ∈ logs) ↔
      ∃ localLogs h, (k, localLogs) ∈ localLogHeights ∧ (l, h) ∈ localLogs ∧
        RemoteLacks remoteLogHeights k l h f) ∧
    ((diffLogHeights localLogHeights remoteLogHeights).map (·.1)).Nodup ∧
    (∀ k logs, (k, logs) ∈ diffLogHeights localLogHeights remoteLogHeights →
      logs ≠ [] ∨ (k, []) ∈ localLogHeights ∧ ∀ remoteLogs, (k, remoteLogs) ∉ remoteLogHeights) ∧
    (∀ k logs, (k, logs) ∈ diffLogHeights localLogHeights remoteLogHeights →
      logs.Pairwise (fun a b => a.1 < b.1)) := by
  have hremoteLogs' : ∀ k logs, (k, logs) ∈ remoteLogHeights → (logs.map (·.1)).Nodup :=
    fun k logs hmem => hremoteLogs (k, logs) hmem
  exact ⟨mem_logs_diffLogHeights_iff hremote hremoteLogs' hlocalLogs,
    diffLogHeights_keys_nodup hlocal remoteLogHeights,
    fun _ _ => diffLogHeights_ne_nil hremote hremoteLogs' hlocalLogs,
    fun _ _ => diffLogHeights_sorted localLogHeights remoteLogHeights⟩

/-- A remote at height 1 of a log we hold up to 3 is sent that log from 2 on. -/
theorem remote_behind_needs_next_seqNum :
    ∃ logs, ((⟨"a"⟩ : PublicKey), logs) ∈
        diffLogHeights [(⟨"a"⟩, [(0, 3), (1, 2)])] [(⟨"a"⟩, [(0, 1)])] ∧ (0, 2) ∈ logs :=
  ((diffLogHeights_exact _ _ (by decide) (by decide) (by decide) (by decide)).1 _ 0 2).mpr
    ⟨_, 3, List.mem_singleton_self _, by simp,
      .inr ⟨_, 1, List.mem_singleton_self _, by simp, by decide, rfl⟩⟩

end Aquadoggo.Replication
