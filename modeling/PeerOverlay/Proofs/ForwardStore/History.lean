import Mathlib.Data.List.Dedup
import Mathlib.Data.List.Induction
import Mathlib.Data.List.Perm.Subperm
import PeerOverlay.ForwardStore

/-!
# Remembered forwards and the history of forwards

A store remembers the last of the forwards that were made, as long as they are not too old and
not too many others were made after them.  Which forwards it forgets early, because there is no
room or because an older one was asked for, makes no difference to its answers: these can be
read off the whole history of forwards.
-/

namespace PeerOverlay.ForwardStore

/-- The forwards that were made, each with its time, in order. -/
abbrev History := List (ForwardedSignal × Nat)

def History.signals (history : History) : List ForwardedSignal :=
  history.map Prod.fst

/-- Whether a signal was last forwarded at some time, and what was forwarded after that. -/
def LastAt (history : History) (signal : ForwardedSignal) (seen : Nat) (later : History) : Prop :=
  signal ∉ later.signals ∧ (signal, seen) :: later <:+ history

/-- Whether a signal was last forwarded less than the greatest age ago, and fewer different
signals than there is room for were forwarded after that. -/
def Recent (room maxAge : Nat) (history : History) (now : Nat) (signal : ForwardedSignal) : Prop :=
  ∃ seen later, LastAt history signal seen later ∧ now - seen < maxAge ∧
    later.signals.dedup.length < room

variable {history later : History} {signal other : ForwardedSignal} {seen now moment : Nat}
  {room maxAge : Nat} {store : ForwardStore}

/-! ## The last forward of a signal -/

/-- A new value stands behind all others, and nowhere else. -/
theorem dedup_concat {α : Type} [DecidableEq α] (values : List α) (new : α) :
    (values ++ [new]).dedup = values.dedup.filter (· ≠ new) ++ [new] := by
  induction values with
  | nil => rfl
  | cons value rest hypothesis =>
      rw [List.cons_append]
      by_cases again : value ∈ rest
      · rw [List.dedup_cons_of_mem again, List.dedup_cons_of_mem (List.mem_append_left _ again),
          hypothesis]
      · rw [List.dedup_cons_of_notMem again]
        by_cases same : value = new
        · rw [List.dedup_cons_of_mem (by simp [same]), hypothesis]
          simp [same]
        · rw [List.dedup_cons_of_notMem (by simp [again, same]), hypothesis]
          simp [same]

theorem signals_append (earlier later : History) :
    History.signals (earlier ++ later) = earlier.signals ++ later.signals :=
  List.map_append

/-- A further forward is the last one of its signal, and leaves those of other signals where they
are. -/
theorem lastAt_concat_iff :
    LastAt (history ++ [(other, moment)]) signal seen later ↔
      (signal = other ∧ seen = moment ∧ later = []) ∨
        (signal ≠ other ∧ ∃ before, LastAt history signal seen before ∧
          later = before ++ [(other, moment)]) := by
  constructor
  · rintro ⟨absent, behind⟩
    obtain ⟨front, split, within⟩ := (List.suffix_concat_iff.1 behind).resolve_left (by simp)
    cases front with
    | nil =>
        have single : (signal, seen) = (other, moment) ∧ later = [] := by simpa using split
        obtain ⟨⟨rfl, rfl⟩, none⟩ := single
        exact .inl ⟨rfl, rfl, none⟩
    | cons first before =>
        rw [List.cons_append, List.cons.injEq] at split
        obtain ⟨rfl, rfl⟩ := split
        rw [signals_append, List.mem_append, not_or] at absent
        refine .inr ⟨?_, before, ⟨absent.1, within⟩, rfl⟩
        exact fun same => absent.2 (List.mem_singleton.2 same)
  · rintro (⟨rfl, rfl, rfl⟩ | ⟨different, before, ⟨absent, within⟩, rfl⟩)
    · exact ⟨List.not_mem_nil, List.suffix_append ..⟩
    · refine ⟨?_, List.suffix_append_self_iff.2 within⟩
      rw [signals_append, List.mem_append, not_or]
      exact ⟨absent, fun new => different (List.mem_singleton.1 new)⟩

theorem exists_lastAt (made : signal ∈ history.signals) :
    ∃ seen later, LastAt history signal seen later := by
  induction history using List.reverseRecOn with
  | nil => cases made
  | append_singleton earlier last hypothesis =>
      obtain ⟨other, moment⟩ := last
      by_cases same : signal = other
      · exact ⟨moment, [], lastAt_concat_iff.2 (.inl ⟨same, rfl, rfl⟩)⟩
      · rw [signals_append, List.mem_append] at made
        obtain ⟨seen, before, last⟩ :=
          hypothesis (made.resolve_right fun new => same (List.mem_singleton.1 new))
        exact ⟨seen, _, lastAt_concat_iff.2 (.inr ⟨same, before, last, rfl⟩)⟩

namespace LastAt

theorem mem (last : LastAt history signal seen later) : (signal, seen) ∈ history :=
  last.2.subset (List.mem_cons_self ..)

/-- There is only one last forward of a signal. -/
theorem unique {first second : Nat} {before after : History}
    (one : LastAt history signal first before) (another : LastAt history signal second after) :
    (first, before) = (second, after) := by
  induction history using List.reverseRecOn generalizing before after with
  | nil => exact absurd one.mem List.not_mem_nil
  | append_singleton earlier last hypothesis =>
      rcases lastAt_concat_iff.1 one with ⟨same, rfl, rfl⟩ | ⟨different, front, sooner, rfl⟩
      · rcases lastAt_concat_iff.1 another with ⟨_, rfl, rfl⟩ | ⟨different, _⟩
        · rfl
        · exact absurd same different
      · rcases lastAt_concat_iff.1 another with ⟨same, _⟩ | ⟨_, back, too, rfl⟩
        · exact absurd same different
        · simpa using hypothesis sooner too

/-- What was forwarded after a signal stands behind it among the different signals. -/
theorem suffix_dedup (last : LastAt history signal seen later) :
    signal :: later.signals.dedup <:+ history.signals.dedup := by
  obtain ⟨absent, earlier, rfl⟩ := last
  rw [signals_append, List.dedup_append]
  have own : History.signals ((signal, seen) :: later) = signal :: later.signals := rfl
  rw [own, List.dedup_cons_of_notMem absent]
  exact List.suffix_union_right ..

/-- What is not forwarded after a signal was last forwarded no later than the signal. -/
theorem le_of_absent {rest : History} (last : LastAt history signal seen later)
    (another : LastAt history other moment rest) (absent : other ∉ later.signals)
    (ordered : (history.map Prod.snd).Pairwise (· ≤ ·)) : moment ≤ seen := by
  have among : (signal, seen) ∈ (other, moment) :: rest := by
    rcases List.suffix_or_suffix_of_suffix last.2 another.2 with within | beyond
    · exact within.subset (List.mem_cons_self ..)
    · rcases List.suffix_cons_iff.1 beyond with same | behind
      · rw [same]
        exact List.mem_cons_self ..
      · refine absurd ?_ absent
        exact List.mem_map.2 ⟨_, behind.subset (List.mem_cons_self ..), rfl⟩
  have tail : (((other, moment) :: rest).map Prod.snd).Pairwise (· ≤ ·) :=
    ordered.sublist (another.2.sublist.map Prod.snd)
  rcases List.mem_cons.1 among with same | behind
  · cases same
    exact Nat.le_refl _
  · exact (List.pairwise_cons.1 tail).1 seen (List.mem_map.2 ⟨_, behind, rfl⟩)

end LastAt

/-- What is recent after another forward was recent before it. -/
theorem Recent.of_concat (recent : Recent room maxAge (history ++ [(other, moment)]) now signal)
    (different : signal ≠ other) : Recent room maxAge history now signal := by
  obtain ⟨seen, later, last, young, few⟩ := recent
  obtain ⟨same, _⟩ | ⟨_, before, sooner, rfl⟩ := lastAt_concat_iff.1 last
  · exact absurd same different
  · refine ⟨seen, before, sooner, young, Nat.lt_of_le_of_lt ?_ few⟩
    refine (List.subperm_of_subset (List.nodup_dedup _) ?_).length_le
    intro forwarded made
    rw [List.mem_dedup] at made ⊢
    rw [signals_append]
    exact List.mem_append_left _ made

/-- A forward is recent as long as it is young and few other signals were forwarded after it,
even if the signal was forwarded again. -/
theorem recent_of_forwarded (ordered : (history.map Prod.snd).Pairwise (· ≤ ·))
    (made : (signal, seen) :: later <:+ history) (young : now - seen < maxAge)
    (few : (later.signals.filter (· ≠ signal)).dedup.length < room) :
    Recent room maxAge history now signal := by
  have known : signal ∈ history.signals :=
    List.mem_map.2 ⟨_, made.subset (List.mem_cons_self ..), rfl⟩
  obtain ⟨moment, rest, last⟩ := exists_lastAt known
  have behind : (signal, moment) :: rest <:+ (signal, seen) :: later := by
    rcases List.suffix_or_suffix_of_suffix last.2 made with within | beyond
    · exact within
    · rcases List.suffix_cons_iff.1 beyond with same | again
      · exact ⟨[], same.symm⟩
      · refine absurd ?_ last.1
        exact List.mem_map.2 ⟨_, again.subset (List.mem_cons_self ..), rfl⟩
  refine ⟨moment, rest, last, ?_, Nat.lt_of_le_of_lt ?_ few⟩
  · have tail := ordered.sublist (made.sublist.map Prod.snd)
    rcases List.mem_cons.1 (behind.subset (List.mem_cons_self ..)) with same | after
    · cases same
      exact young
    · have order : seen ≤ moment :=
        (List.pairwise_cons.1 tail).1 moment (List.mem_map.2 ⟨_, after, rfl⟩)
      omega
  · refine (List.subperm_of_subset (List.nodup_dedup _) ?_).length_le
    have suffix : rest <:+ later := by
      rcases List.suffix_cons_iff.1 behind with same | within
      · exact ⟨[], (List.cons.inj same).2⟩
      · exact (List.suffix_cons _ rest).trans within
    intro other member
    rw [List.mem_dedup] at member
    rw [List.mem_dedup, List.mem_filter, decide_eq_true_eq]
    refine ⟨(suffix.sublist.map Prod.fst).subset member, ?_⟩
    rintro rfl
    exact last.1 member

/-! ## Forgetting -/

theorem get?_foldl_erase (gone : List ForwardedSignal) (lastSeen : Table ForwardedSignal Nat)
    (tested : ForwardedSignal) :
    (gone.foldl Table.erase lastSeen).get? tested =
      if tested ∈ gone then none else lastSeen.get? tested := by
  induction gone generalizing lastSeen with
  | nil => simp
  | cons first rest hypothesis =>
      rw [List.foldl_cons, hypothesis, Table.get?_erase]
      by_cases same : first = tested <;> by_cases later : tested ∈ rest <;>
        simp [same, later, Ne.symm]

/-- All forwards up to the given one are forgotten. -/
theorem purge_append {before : List ForwardedSignal} (absent : signal ∉ before)
    (after : List ForwardedSignal) (lastSeen : Table ForwardedSignal Nat) :
    purge signal (before ++ signal :: after) lastSeen =
      (after, (before ++ [signal]).foldl Table.erase lastSeen) := by
  induction before generalizing lastSeen with
  | nil => simp [purge]
  | cons first rest hypothesis =>
      rw [List.mem_cons, not_or] at absent
      simp [purge, Ne.symm absent.1, hypothesis absent.2]

/-! ## What a store holds of a history -/

/-- Whether a store holds the last of the forwards that were made, and none is missing that would
still count. -/
structure Holds (store : ForwardStore) (room maxAge : Nat) (history : History) (now : Nat) :
    Prop where
  limits : store.capacity = room ∧ store.maxAge = maxAge
  positive : 0 < room
  few : store.queue.length ≤ room
  queue : store.queue <:+ history.signals.dedup
  seen : ∀ signal seen, store.lastSeen.get? signal = some seen ↔
    signal ∈ store.queue ∧ ∃ later, LastAt history signal seen later
  gone : ∀ signal, signal ∉ store.queue →
    ¬ Recent room maxAge history now signal
  ordered : (history.map Prod.snd).Pairwise (· ≤ ·)
  past : ∀ forward ∈ history, forward.2 ≤ now

namespace Holds

theorem withLimits (capacity maxAge now : Nat) :
    (withLimits capacity maxAge).Holds (max capacity 1) maxAge [] now where
  limits := ⟨rfl, rfl⟩
  positive := Nat.lt_of_lt_of_le Nat.zero_lt_one (Nat.le_max_right capacity 1)
  few := Nat.zero_le _
  queue := List.nil_suffix
  seen := by simp [ForwardStore.withLimits]
  gone := by
    rintro signal _ ⟨seen, later, last, _⟩
    exact absurd last.mem List.not_mem_nil
  ordered := List.Pairwise.nil
  past := by simp

theorem nodup_queue (holds : store.Holds room maxAge history now) : store.queue.Nodup :=
  (List.nodup_dedup history.signals).sublist holds.queue.sublist

theorem contains_iff (holds : store.Holds room maxAge history now) :
    store.contains signal = true ↔ signal ∈ store.queue := by
  unfold contains Table.contains
  rw [Option.isSome_iff_exists]
  constructor
  · rintro ⟨seen, found⟩
    exact ((holds.seen signal seen).1 found).1
  · intro member
    obtain ⟨seen, later, last⟩ :=
      exists_lastAt (List.mem_dedup.1 (holds.queue.subset member))
    exact ⟨seen, (holds.seen signal seen).2 ⟨member, later, last⟩⟩

/-- What was forwarded after a signal that is held is held too. -/
theorem suffix_queue (holds : store.Holds room maxAge history now) (member : signal ∈ store.queue)
    (last : LastAt history signal seen later) :
    signal :: later.signals.dedup <:+ store.queue := by
  rcases List.suffix_or_suffix_of_suffix last.suffix_dedup holds.queue with within | beyond
  · exact within
  · rcases List.suffix_cons_iff.1 beyond with same | behind
    · exact ⟨[], same.symm⟩
    · exact absurd (List.mem_dedup.1 (behind.subset member)) last.1

/-- A store answers as its history does. -/
theorem fst_wasRecentlyForwarded_iff (holds : store.Holds room maxAge history now)
    (signal : ForwardedSignal) :
    (store.wasRecentlyForwarded signal now).1 = true ↔
      Recent room maxAge history now signal := by
  unfold wasRecentlyForwarded
  rw [holds.limits.2]
  cases found : store.lastSeen.get? signal with
  | none =>
      have absent : signal ∉ store.queue := by
        rw [← holds.contains_iff, contains, Table.contains, found]
        exact Bool.false_ne_true
      simp [holds.gone signal absent]
  | some seen =>
      obtain ⟨member, later, last⟩ := (holds.seen signal seen).1 found
      dsimp only
      split
      · next young =>
          refine iff_of_true rfl ⟨seen, later, last, young, ?_⟩
          have held := (holds.suffix_queue member last).length_le
          exact Nat.lt_of_lt_of_le held holds.few
      · next old =>
          refine iff_of_false Bool.false_ne_true ?_
          rintro ⟨otherwise, rest, again, young, _⟩
          cases last.unique again
          exact old young

theorem pass (holds : store.Holds room maxAge history now) (later : now ≤ moment) :
    store.Holds room maxAge history moment where
  limits := holds.limits
  positive := holds.positive
  few := holds.few
  queue := holds.queue
  seen := holds.seen
  gone := by
    rintro signal absent ⟨seen, rest, last, young, few⟩
    refine holds.gone signal absent ⟨seen, rest, last, ?_, few⟩
    omega
  ordered := holds.ordered
  past := fun forward made => Nat.le_trans (holds.past forward made) later

/-- Forwards up to one that is too old are too old as well. -/
theorem purged (holds : store.Holds room maxAge history now) (old : ¬ now - seen < maxAge)
    (last : LastAt history signal seen later) {before : List ForwardedSignal}
    (split : before ++ signal :: later.signals.dedup = store.queue) :
    Holds
      { store with
        queue := later.signals.dedup
        lastSeen := (before ++ [signal]).foldl Table.erase store.lastSeen }
      room maxAge history now where
  limits := holds.limits
  positive := holds.positive
  few := by
    have few := holds.few
    rw [← split, List.length_append, List.length_cons] at few
    dsimp only
    omega
  queue := (List.suffix_cons signal _).trans last.suffix_dedup
  seen := by
    intro tested moment
    have distinct := holds.nodup_queue
    rw [← split, List.append_cons, List.nodup_append] at distinct
    dsimp only
    rw [get?_foldl_erase]
    split
    · next forgotten =>
        have absent : tested ∉ later.signals.dedup := fun kept =>
          distinct.2.2 tested forgotten tested kept rfl
        simp [absent]
    · next kept =>
        rw [holds.seen, ← split, List.append_cons, List.mem_append, or_iff_right kept]
  gone := by
    rintro tested absent ⟨moment, rest, another, young, _⟩
    have sooner := last.le_of_absent another (mt List.mem_dedup.2 absent) holds.ordered
    omega
  ordered := holds.ordered
  past := holds.past

/-- A question makes a store forget nothing that would still count. -/
theorem snd_wasRecentlyForwarded (holds : store.Holds room maxAge history now)
    (signal : ForwardedSignal) :
    (store.wasRecentlyForwarded signal now).2.Holds room maxAge history now := by
  unfold wasRecentlyForwarded
  cases found : store.lastSeen.get? signal with
  | none => exact holds
  | some seen =>
      dsimp only
      split
      · exact holds
      · next old =>
          rw [holds.limits.2] at old
          obtain ⟨member, later, last⟩ := (holds.seen signal seen).1 found
          obtain ⟨before, split⟩ := holds.suffix_queue member last
          have distinct := holds.nodup_queue
          rw [← split, List.nodup_append] at distinct
          have absent : signal ∉ before := fun earlier =>
            distinct.2.2 signal earlier signal (List.mem_cons_self ..) rfl
          have forgets := purge_append absent later.signals.dedup store.lastSeen
          rw [split] at forgets
          rw [forgets]
          exact holds.purged old last split

/-- What a store holds after a forward that it has put behind the others that it keeps.  It lets
one go only if it is full otherwise. -/
structure Puts (before after : ForwardStore) (signal : ForwardedSignal) (now : Nat)
    (kept : List ForwardedSignal) : Prop where
  capacity : after.capacity = before.capacity
  maxAge : after.maxAge = before.maxAge
  queue : after.queue = kept ++ [signal]
  fits : kept.length < before.capacity
  suffix : kept <:+ before.queue.filter (· ≠ signal)
  full : kept = before.queue.filter (· ≠ signal) ∨ before.capacity ≤ kept.length + 1
  own : after.lastSeen.get? signal = some now
  others : ∀ other, other ≠ signal →
    after.lastSeen.get? other = if other ∈ kept then before.lastSeen.get? other else none

theorem get?_eq_none (holds : store.Holds room maxAge history now) (absent : signal ∉ store.queue) :
    store.lastSeen.get? signal = none := by
  rw [← holds.contains_iff, contains, Table.contains, Option.isSome_iff_ne_none, not_not] at absent
  exact absent

theorem puts_add (holds : store.Holds room maxAge history now) (signal : ForwardedSignal) :
    ∃ kept, Puts store (store.add signal now) signal now kept := by
  unfold add
  split
  · next known =>
      have member := holds.contains_iff.1 known
      refine ⟨store.queue.filter (· ≠ signal), rfl, rfl, rfl, ?_, List.suffix_rfl, .inl rfl, ?_, ?_⟩
      · rw [holds.limits.1]
        refine Nat.lt_of_lt_of_le ?_ holds.few
        exact List.length_filter_lt_length_iff_exists.2 ⟨signal, member, by simp⟩
      · simp [Table.get?_insert]
      · intro other different
        rw [Table.get?_insert, if_neg different.symm]
        split
        · rfl
        · next absent =>
            apply holds.get?_eq_none
            simpa [different] using absent
  · next unknown =>
      have absent := mt holds.contains_iff.2 unknown
      have all : store.queue.filter (· ≠ signal) = store.queue := by
        rw [List.filter_eq_self]
        intro other member
        rw [decide_eq_true_eq]
        rintro rfl
        exact absent member
      unfold makeRoom
      split
      · next free =>
          refine ⟨store.queue, rfl, rfl, rfl, free, ?_, .inl all.symm, ?_, ?_⟩
          · exact ⟨[], all.symm⟩
          · simp [Table.get?_insert]
          · intro other different
            dsimp only
            rw [Table.get?_insert, if_neg different.symm]
            split
            · rfl
            · next absent => exact holds.get?_eq_none absent
      · next full =>
          have few := holds.few
          have room := holds.positive
          rw [← holds.limits.1] at few room
          have distinct := holds.nodup_queue
          have missing {other : ForwardedSignal} (absent : other ∉ store.queue) :
              store.lastSeen.get? other = none := holds.get?_eq_none absent
          cases queue : store.queue with
          | nil =>
              rw [queue] at full
              exact absurd room full
          | cons oldest rest =>
              rw [queue] at full few distinct all missing
              rw [List.length_cons] at full few
              refine ⟨rest, rfl, rfl, rfl, few, ?_, .inr (Nat.le_of_not_lt full), ?_, ?_⟩
              · rw [queue, all]
                exact List.suffix_cons oldest rest
              · simp [Table.get?_insert]
              · intro other different
                dsimp only
                rw [Table.get?_insert, if_neg different.symm, Table.get?_erase]
                by_cases gone : oldest = other
                · rw [if_pos gone, if_neg (gone ▸ (List.nodup_cons.1 distinct).1)]
                · rw [if_neg gone]
                  split
                  · rfl
                  · next absent =>
                      apply missing
                      rw [List.mem_cons, not_or]
                      exact ⟨Ne.symm gone, absent⟩

/-- What is let go for want of room is not recent any more. -/
theorem not_recent_of_dropped (holds : store.Holds room maxAge history now) {after : ForwardStore}
    {kept : List ForwardedSignal} (puts : Puts store after signal now kept)
    (member : other ∈ store.queue) (different : other ≠ signal) (dropped : other ∉ kept) :
    ¬ Recent room maxAge (history ++ [(signal, now)]) now other := by
  rintro ⟨seen, later, last, _, few⟩
  obtain ⟨same, _⟩ | ⟨_, before, sooner, rfl⟩ := lastAt_concat_iff.1 last
  · exact different same
  have among : other ∈ store.queue.filter (· ≠ signal) := by
    simpa [member] using different
  have full := puts.full.resolve_left fun all => dropped (all ▸ among)
  have behind := (holds.suffix_queue member sooner).filter (· ≠ signal)
  rw [List.filter_cons_of_pos (by simpa using different)] at behind
  -- All that is kept was forwarded after what is let go.
  have after : kept <:+ before.signals.dedup.filter (· ≠ signal) := by
    rcases List.suffix_or_suffix_of_suffix puts.suffix behind with within | beyond
    · rcases List.suffix_cons_iff.1 within with same | rest
      · exact absurd (same ▸ List.mem_cons_self ..) dropped
      · exact rest
    · exact absurd (beyond.subset (List.mem_cons_self ..)) dropped
  have many := after.length_le
  rw [holds.limits.1] at full
  have own : History.signals [(signal, now)] = [signal] := rfl
  rw [signals_append, own, dedup_concat, List.length_append, List.length_singleton] at few
  omega

/-- A forward that is added is held behind all others. -/
theorem add (holds : store.Holds room maxAge history now) (signal : ForwardedSignal) :
    (store.add signal now).Holds room maxAge (history ++ [(signal, now)]) now := by
  obtain ⟨kept, puts⟩ := holds.puts_add signal
  have own : History.signals [(signal, now)] = [signal] := rfl
  have among {other : ForwardedSignal} (member : other ∈ kept) :
      other ∈ store.queue ∧ other ≠ signal := by
    simpa using puts.suffix.subset member
  refine ⟨⟨puts.capacity.trans holds.limits.1, puts.maxAge.trans holds.limits.2⟩, holds.positive,
    ?_, ?_, ?_, ?_, ?_, ?_⟩
  · rw [puts.queue, List.length_append, List.length_singleton, ← holds.limits.1]
    exact puts.fits
  · rw [puts.queue, signals_append, own, dedup_concat, List.suffix_append_self_iff]
    exact puts.suffix.trans (holds.queue.filter _)
  · intro other seen
    rw [puts.queue, List.mem_append, List.mem_singleton]
    by_cases same : other = signal
    · rw [same, puts.own]
      simp [lastAt_concat_iff, eq_comm]
    · rw [puts.others other same]
      split
      · next member =>
          rw [holds.seen]
          simp [lastAt_concat_iff, same, member, (among member).1]
      · next absent => simp [same, absent]
  · intro other absent recent
    rw [puts.queue, List.mem_append, List.mem_singleton, not_or] at absent
    by_cases member : other ∈ store.queue
    · exact holds.not_recent_of_dropped puts member absent.2 absent.1 recent
    · exact holds.gone other member (recent.of_concat absent.2)
  · rw [List.map_append, List.pairwise_append]
    refine ⟨holds.ordered, List.pairwise_singleton _ _, ?_⟩
    intro earlier member later new
    obtain ⟨forward, made, rfl⟩ := List.mem_map.1 member
    rw [List.mem_singleton.1 new]
    exact holds.past forward made
  · intro forward made
    rcases List.mem_append.1 made with earlier | new
    · exact holds.past forward earlier
    · exact Nat.le_of_eq (congrArg Prod.snd (List.mem_singleton.1 new))

end Holds

/-! ## Stores in use -/

/-- What is done with a store: a forward is added, one is asked for, or time passes. -/
inductive Use where
  | add (signal : ForwardedSignal)
  | ask (signal : ForwardedSignal)
  | pass (duration : Nat)

/-- A store, the time, and the forwards that were added to the store. -/
structure Watched where
  store : ForwardStore
  now : Nat
  history : History

namespace Watched

/-- A store to which nothing was added yet. -/
def start (capacity maxAge now : Nat) : Watched where
  store := .withLimits capacity maxAge
  now := now
  history := []

def use (watched : Watched) : Use → Watched
  | .add signal =>
      { watched with
        store := watched.store.add signal watched.now
        history := watched.history ++ [(signal, watched.now)] }
  | .ask signal =>
      { watched with store := (watched.store.wasRecentlyForwarded signal watched.now).2 }
  | .pass duration => { watched with now := watched.now + duration }

def useAll (watched : Watched) (uses : List Use) : Watched :=
  uses.foldl use watched

/-- What the store says of a signal. -/
def answer (watched : Watched) (signal : ForwardedSignal) : Bool :=
  (watched.store.wasRecentlyForwarded signal watched.now).1

end Watched

/-- Whether a use tells a store anything.  A question does not. -/
def Use.tells : Use → Bool
  | .ask _ => false
  | _ => true

theorem holds_useAll (capacity maxAge start : Nat) (uses : List Use) :
    let watched := (Watched.start capacity maxAge start).useAll uses
    watched.store.Holds (max capacity 1) maxAge watched.history watched.now := by
  induction uses using List.reverseRecOn with
  | nil => exact .withLimits capacity maxAge start
  | append_singleton earlier last hypothesis =>
      unfold Watched.useAll at hypothesis ⊢
      rw [List.foldl_append]
      cases last with
      | add signal => exact hypothesis.add signal
      | ask signal => exact hypothesis.snd_wasRecentlyForwarded signal
      | pass duration => exact hypothesis.pass (Nat.le_add_right _ duration)

/-- Questions are no part of the history. -/
theorem useAll_filter_tells (watched : Watched) (uses : List Use) :
    (watched.useAll (uses.filter Use.tells)).history = (watched.useAll uses).history ∧
      (watched.useAll (uses.filter Use.tells)).now = (watched.useAll uses).now := by
  induction uses using List.reverseRecOn with
  | nil => exact ⟨rfl, rfl⟩
  | append_singleton earlier last hypothesis =>
      obtain ⟨history, now⟩ := hypothesis
      unfold Watched.useAll at history now ⊢
      rw [List.filter_append, List.foldl_append, List.foldl_append]
      cases last with
      | ask signal => exact ⟨history, now⟩
      | add signal =>
          refine ⟨?_, now⟩
          show _ ++ [(signal, _)] = _ ++ [(signal, _)]
          rw [history, now]
      | pass duration => exact ⟨history, congrArg (· + duration) now⟩

/-- A store says that a signal was forwarded recently exactly if it was added last less than the
greatest age ago, and fewer different signals than there is room for were added after that.  This
is so after any additions, questions and times that have passed.  No question changes a later
answer, whatever it has made the store forget. -/
theorem answer_iff_recent (capacity maxAge start : Nat) (uses : List Use)
    (signal : ForwardedSignal) :
    let watched := (Watched.start capacity maxAge start).useAll uses
    (watched.answer signal = true ↔
        Recent (max capacity 1) maxAge watched.history watched.now signal) ∧
      ((Watched.start capacity maxAge start).useAll (uses.filter Use.tells)).answer signal =
        watched.answer signal := by
  intro watched
  have answers := (holds_useAll capacity maxAge start uses).fst_wasRecentlyForwarded_iff signal
  have unasked := (holds_useAll capacity maxAge start
    (uses.filter Use.tells)).fst_wasRecentlyForwarded_iff signal
  obtain ⟨history, now⟩ := useAll_filter_tells (Watched.start capacity maxAge start) uses
  rw [history, now] at unasked
  refine ⟨answers, Bool.eq_iff_iff.2 ?_⟩
  unfold Watched.answer
  rw [now]
  exact unasked.trans answers.symm

end PeerOverlay.ForwardStore
