import PeerOverlay.Proofs.ForwardStore.History

/-!
# The queue and the table of a store

A store keeps its forwards twice: in a queue that says which of them goes first, and in a table
that says when each was last seen.  Every use of the store changes both.  That they agree, and
that the queue is in the order of the times in the table, is what allows the store to forget the
forwards that are too old by looking at the front of its queue only.
-/

namespace PeerOverlay.ForwardStore

variable {store : ForwardStore} {history : History} {signal : ForwardedSignal} {seen now : Nat}
  {room maxAge : Nat}

/-- When the forwards of the queue were last seen, from the front to the back. -/
def times (store : ForwardStore) : List Nat :=
  store.queue.filterMap store.lastSeen.get?

/-- Whether queue and table are about the same forwards, the older ones first. -/
structure Aligned (store : ForwardStore) : Prop where
  nodup : store.queue.Nodup
  keys : store.lastSeen.keys.Perm store.queue
  ordered : store.times.Pairwise (· ≤ ·)

/-- What a store is after it has forgotten its forwards up to a given one: those in front of it
and itself, none of which was seen later, and no others. -/
structure Forgets (before after : ForwardStore) (signal : ForwardedSignal) (seen : Nat)
    (gone kept : List ForwardedSignal) : Prop where
  split : before.queue = gone ++ signal :: kept
  queue : after.queue = kept
  table : ∀ tested, after.lastSeen.get? tested =
    if tested ∈ kept then before.lastSeen.get? tested else none
  older : ∀ forgotten ∈ gone ++ [signal], ∃ moment ≤ seen,
    before.lastSeen.get? forgotten = some moment

/-! ## Queues in use -/

/-- The different signals of a history, in the order of their last forwards, are in the order of
the times of these. -/
theorem pairwise_lastAt (ordered : (history.map Prod.snd).Pairwise (· ≤ ·)) :
    history.signals.dedup.Pairwise fun older newer =>
      ∀ first before second after, LastAt history older first before →
        LastAt history newer second after → first ≤ second := by
  induction history using List.reverseRecOn with
  | nil => exact List.Pairwise.nil
  | append_singleton earlier last hypothesis =>
      obtain ⟨new, moment⟩ := last
      rw [List.map_append, List.pairwise_append] at ordered
      obtain ⟨sorted, -, past⟩ := ordered
      have own : History.signals [(new, moment)] = [new] := rfl
      rw [signals_append, own, dedup_concat, List.pairwise_append]
      refine ⟨?_, List.pairwise_singleton _ _, ?_⟩
      · refine ((hypothesis sorted).filter _).imp_of_mem ?_
        intro older newer kept too inOrder first before second after one another
        have different : older ≠ new := by simpa using (List.mem_filter.1 kept).2
        have apart : newer ≠ new := by simpa using (List.mem_filter.1 too).2
        obtain ⟨same, _⟩ | ⟨_, _, sooner, _⟩ := lastAt_concat_iff.1 one
        · exact absurd same different
        obtain ⟨same, _⟩ | ⟨_, _, later, _⟩ := lastAt_concat_iff.1 another
        · exact absurd same apart
        exact inOrder _ _ _ _ sooner later
      · intro older kept newer only first before second after one another
        rw [List.mem_singleton.1 only] at another
        have different : older ≠ new := by simpa using (List.mem_filter.1 kept).2
        obtain ⟨same, _⟩ | ⟨_, _, sooner, _⟩ := lastAt_concat_iff.1 one
        · exact absurd same different
        obtain ⟨_, latest, _⟩ | ⟨other, _⟩ := lastAt_concat_iff.1 another
        · rw [latest]
          exact past first (List.mem_map.2 ⟨_, sooner.mem, rfl⟩) moment (List.mem_singleton_self _)
        · exact absurd rfl other

/-- A store that holds what its history says is aligned. -/
theorem Holds.aligned (holds : store.Holds room maxAge history now) : store.Aligned where
  nodup := holds.nodup_queue
  keys := by
    refine (List.perm_ext_iff_of_nodup store.lastSeen.distinct holds.nodup_queue).2 ?_
    intro tested
    exact (Table.contains_iff store.lastSeen tested).symm.trans holds.contains_iff
  ordered := by
    refine List.pairwise_filterMap.2 ?_
    refine ((pairwise_lastAt holds.ordered).sublist holds.queue.sublist).imp ?_
    intro older newer inOrder first one second another
    obtain ⟨_, before, sooner⟩ := (holds.seen older first).1 one
    obtain ⟨_, after, later⟩ := (holds.seen newer second).1 another
    exact inOrder first before second after sooner later

/-! ## Forgetting -/

namespace Aligned

theorem mem_queue_iff (aligned : store.Aligned) :
    signal ∈ store.queue ↔ ∃ seen, store.lastSeen.get? signal = some seen := by
  rw [← aligned.keys.mem_iff, ← Table.contains_iff, Table.contains, Option.isSome_iff_exists]

/-- What stands in front of a forward was not seen later. -/
theorem le_of_queue_eq (aligned : store.Aligned) {gone kept : List ForwardedSignal}
    (split : store.queue = gone ++ signal :: kept)
    (found : store.lastSeen.get? signal = some seen) :
    ∀ forgotten ∈ gone ++ [signal], ∃ moment ≤ seen,
      store.lastSeen.get? forgotten = some moment := by
  have ordered := aligned.ordered
  rw [times, List.pairwise_filterMap, split, List.append_cons, List.pairwise_append,
    List.pairwise_append] at ordered
  obtain ⟨⟨-, -, front⟩, -, -⟩ := ordered
  intro forgotten member
  rcases List.mem_append.1 member with inFront | last
  · have queued : forgotten ∈ store.queue := by
      rw [split]
      exact List.mem_append_left _ inFront
    obtain ⟨moment, stored⟩ := aligned.mem_queue_iff.1 queued
    exact ⟨moment, front forgotten inFront signal (List.mem_singleton_self _) moment stored seen
      found, stored⟩
  · rw [List.mem_singleton.1 last]
    exact ⟨seen, Nat.le_refl _, found⟩

/-- Asking for a forward that is too old makes the store forget it with all that stand in front
of it, and nothing else. -/
theorem wasRecentlyForwarded_of_old (aligned : store.Aligned)
    (found : store.lastSeen.get? signal = some seen) (old : ¬ now - seen < store.maxAge) :
    (store.wasRecentlyForwarded signal now).1 = false ∧
      ∃ gone kept, Forgets store (store.wasRecentlyForwarded signal now).2 signal seen
        gone kept := by
  obtain ⟨gone, kept, split⟩ := List.append_of_mem (aligned.mem_queue_iff.2 ⟨seen, found⟩)
  have distinct := aligned.nodup
  rw [split, List.nodup_append] at distinct
  have absent : signal ∉ gone := fun earlier =>
    distinct.2.2 signal earlier signal List.mem_cons_self rfl
  have forgets : store.wasRecentlyForwarded signal now =
      (false, { store with
        queue := kept
        lastSeen := (gone ++ [signal]).foldl Table.erase store.lastSeen }) := by
    unfold wasRecentlyForwarded
    simp only [found, if_neg old, split, purge_append absent]
  rw [forgets]
  refine ⟨rfl, gone, kept, split, rfl, ?_, aligned.le_of_queue_eq split found⟩
  intro tested
  have apart := aligned.nodup
  rw [split, List.append_cons, List.nodup_append] at apart
  show ((gone ++ [signal]).foldl Table.erase store.lastSeen).get? tested = _
  rw [get?_foldl_erase]
  by_cases stays : tested ∈ kept
  · rw [if_pos stays, if_neg fun forgotten => apart.2.2 tested forgotten tested stays rfl]
  · rw [if_neg stays]
    split
    · rfl
    · next remains =>
        have missing : tested ∉ store.queue := by
          rw [split, List.append_cons, List.mem_append, not_or]
          exact ⟨remains, stays⟩
        rw [aligned.mem_queue_iff, not_exists] at missing
        exact Option.eq_none_iff_forall_ne_some.2 missing

end Aligned

/-- After any additions, questions and times that have passed, the queue of a store has no forward
twice, has those of the table and is in the order of their times, and is not longer than there is
room for.  So a question for a forward that is too old makes the store forget this forward and
those in front of it, none of which was seen later, and nothing else. -/
theorem queue_agrees_with_table (capacity maxAge start : Nat) (uses : List Use) :
    let watched := (Watched.start capacity maxAge start).useAll uses
    watched.store.Aligned ∧ watched.store.queue.length ≤ max 1 capacity ∧
      ∀ signal seen, watched.store.lastSeen.get? signal = some seen →
        ¬ watched.now - seen < maxAge →
          (watched.store.wasRecentlyForwarded signal watched.now).1 = false ∧
            ∃ gone kept, Forgets watched.store
              (watched.store.wasRecentlyForwarded signal watched.now).2 signal seen gone kept := by
  intro watched
  have holds := holds_useAll capacity maxAge start uses
  refine ⟨holds.aligned, ?_, ?_⟩
  · rw [Nat.max_comm]
    exact holds.few
  · intro signal seen found old
    rw [← holds.limits.2] at old
    exact holds.aligned.wasRecentlyForwarded_of_old found old

/-- Three forwards of which the first is refreshed, and a question for the third one when it is
too old. -/
theorem queue_agrees_with_table_refreshed :
    let from_ (nonce : UInt32) : ForwardedSignal := ⟨"a", "b", nonce⟩
    let uses : List Use := [.add (from_ 1), .add (from_ 2), .pass 4, .add (from_ 3), .pass 5,
      .add (from_ 1), .pass 5]
    let watched := (Watched.start 3 10 0).useAll uses
    watched.store.queue = [from_ 2, from_ 3, from_ 1] ∧ watched.store.times = [0, 4, 9] ∧
      (watched.store.lastSeen.get? (from_ 3) = some 4 ∧ ¬ watched.now - 4 < 10) ∧
      ∃ gone kept, Forgets watched.store
        (watched.store.wasRecentlyForwarded (from_ 3) watched.now).2 (from_ 3) 4 gone kept := by
  intro from_ uses watched
  have found : watched.store.lastSeen.get? (from_ 3) = some 4 := by decide +kernel
  have old : ¬ watched.now - 4 < 10 := by decide
  exact ⟨by decide +kernel, by decide +kernel, ⟨found, old⟩,
    ((queue_agrees_with_table 3 10 0 uses).2.2 (from_ 3) 4 found old).2⟩

end PeerOverlay.ForwardStore
