import Mathlib.Data.List.Induction
import PeerOverlay.Proofs.Manager.CountedAddresses

/-!
# Peers that are not counted

A peer is counted if the transport or the peer itself tells of a physical host, with one
exception: the placeholder for a place that the transport could not tell stands in front of
what the peer announces, and is not counted.
-/

namespace PeerOverlay.Manager

/-! ## How slots are counted -/

theorem countable_countable (netAddress : Option NetAddress) :
    countable (countable netAddress) = countable netAddress := by
  cases told : countable netAddress with
  | none => rfl
  | some physical => exact countable_some (isPseudo_of_countable told).2

/-- What is known of the network address under which the link of a slot is counted. -/
structure Slot.Counts (slot : Slot) : Prop where
  hosts : slot.countedUnder = none → countable slot.observed = none
  physical : countable slot.countedUnder = slot.countedUnder
  nowhere : slot.observed = some .unknown → slot.countedUnder = none

theorem Slot.Counts.ofLink (link : Link) : (Slot.ofLink link).Counts where
  hosts := fun uncounted => uncounted
  physical := countable_countable link.netAddress
  nowhere := by
    intro unknown
    have seen : link.netAddress = some .unknown := unknown
    exact congrArg countable seen

theorem Slot.countedUnder_accept (slot : Slot) (peer : Peer) :
    (slot.accept (slot.locate peer)).countedUnder =
      slot.countedUnder.or (countable (resolve slot.observed peer.address.netAddress)) := by
  show (slot.countedUnder.orElse fun _ => slot.uncounted (slot.locate peer)) = _
  unfold uncounted
  cases slot.countedUnder <;> rfl

theorem Slot.Counts.accept {slot : Slot} (counts : slot.Counts) (peer : Peer) :
    (slot.accept (slot.locate peer)).Counts where
  hosts := by
    intro uncounted
    rw [Slot.countedUnder_accept] at uncounted
    exact counts.hosts (Option.or_eq_none_iff.1 uncounted).1
  physical := by
    rw [Slot.countedUnder_accept]
    cases counted : slot.countedUnder with
    | none => exact countable_countable _
    | some netAddress =>
        rw [Option.some_or, ← counted]
        exact counts.physical
  nowhere := by
    intro unknown
    have seen : slot.observed = some .unknown := unknown
    rw [Slot.countedUnder_accept, counts.nowhere seen, seen, resolve_of_public rfl]
    rfl

theorem counts_run (config : Config) (book : AddressBook) (steps : List Step) :
    ∀ id slot, (run (Manager.new config book) steps).slots.get? id = some slot → slot.Counts :=
  slots_run Slot.Counts.ofLink (fun _ peer counts => counts.accept peer) config book steps

/-- Whether the transport or the peer itself tells of a physical host. -/
def Slot.IsAtHost (slot : Slot) (announced : Peer) : Prop :=
  (countable slot.observed).isSome ∨ (countable announced.address.netAddress).isSome

/-- Whether a peer announces a physical host over a link that the transport sees nowhere. -/
def Slot.Shadows (slot : Slot) (announced : Peer) : Prop :=
  slot.observed = some .unknown ∧ (countable announced.address.netAddress).isSome

/-- A peer at a physical host is counted, unless the placeholder shadows what it announces. -/
theorem Slot.Counts.isSome_accept {slot : Slot} (counts : slot.Counts) {peer : Peer}
    (atHost : slot.IsAtHost peer) (plain : ¬ slot.Shadows peer) :
    (countable (slot.accept (slot.locate peer)).countedUnder).isSome := by
  rw [(counts.accept peer).physical, Slot.countedUnder_accept]
  cases counted : slot.countedUnder with
  | some netAddress => rfl
  | none =>
      have unseen := counts.hosts counted
      rcases atHost with seen | told
      · rw [unseen] at seen
        exact absurd seen Bool.false_ne_true
      · cases observed : slot.observed with
        | none =>
            rw [Option.none_or, resolve_none]
            exact told
        | some seen =>
            cases seen with
            | ip text => simp [observed, countable, Option.filter, NetAddress.isPseudo] at unseen
            | unknown => exact absurd ⟨observed, told⟩ plain

theorem Slot.Counts.not_isSome_accept {slot : Slot} (counts : slot.Counts) {peer : Peer}
    (shadows : slot.Shadows peer) :
    (countable (slot.accept (slot.locate peer)).countedUnder).isSome = false := by
  rw [(counts.accept peer).nowhere shadows.1]
  rfl

/-! ## Accepted peers -/

/-- The peer that a step accepts, as it announced itself. -/
def Step.accepts? (step : Step) (manager : Manager) : Option Peer :=
  step.move.announcement?.filter fun peer =>
    (manager.slots.get? peer.link).any fun slot =>
      (manager.peerRefusal? step.around.now slot (slot.locate peer)).isNone

/-- The peer that was accepted last over a link, as it announced itself. -/
def lastAccepted? (id : LinkId) (manager : Manager) : List Step → Option Peer
  | [] => none
  | step :: rest =>
      (lastAccepted? id (step.apply manager) rest).or
        ((step.accepts? manager).filter fun peer => peer.link == id)

theorem lastAccepted?_concat (id : LinkId) (manager : Manager) (earlier : List Step)
    (step : Step) :
    lastAccepted? id manager (earlier ++ [step]) =
      ((step.accepts? (run manager earlier)).filter fun peer => peer.link == id).or
        (lastAccepted? id manager earlier) := by
  induction earlier generalizing manager with
  | nil => exact (Option.none_or ..).trans (Option.or_none ..).symm
  | cons first rest hypothesis =>
      rw [List.cons_append, lastAccepted?, hypothesis, run_cons, lastAccepted?, Option.or_assoc]

theorem Step.accepts?_eq_some_iff {step : Step} {manager : Manager} {peer : Peer} :
    step.accepts? manager = some peer ↔
      step.move.announcement? = some peer ∧ ∃ slot, manager.slots.get? peer.link = some slot ∧
        manager.peerRefusal? step.around.now slot (slot.locate peer) = none := by
  unfold accepts?
  rw [Option.filter_eq_some_iff, Option.any_eq_true]
  simp only [Option.isNone_iff_eq_none]

/-- The slot of an accepted peer is the only one that changes. -/
theorem Step.get?_of_accepts? {step : Step} {manager : Manager} {peer : Peer} {slot : Slot}
    (accepts : step.accepts? manager = some peer)
    (known : manager.slots.get? peer.link = some slot) (tested : LinkId) :
    (step.apply manager).slots.get? tested =
      if peer.link = tested then some (slot.accept (slot.locate peer))
      else manager.slots.get? tested := by
  obtain ⟨announced, found, same, admitted⟩ := Step.accepts?_eq_some_iff.1 accepts
  obtain rfl : slot = found := Option.some.inj (known.symm.trans same)
  rw [(step.apply_of_admitted announced known admitted).1, Table.get?_insert]

/-- A step that accepts no peer brings none. -/
theorem Step.get?_of_accepts?_eq_none {step : Step} {manager : Manager} {tested : LinkId}
    {slot : Slot} {peer : Peer} (none : step.accepts? manager = none)
    (found : (step.apply manager).slots.get? tested = some slot)
    (joined : slot.peer = some peer) : manager.slots.get? tested = some slot := by
  cases step.brings manager with
  | nothing fewer => exact fewer.slots found
  | link id link handed known slots counts =>
      rw [slots, Table.get?_insert] at found
      split at found
      · rw [← Option.some.inj found] at joined
        exact absurd joined (Option.some_ne_none peer).symm
      · exact found
  | peer other earlier announced known admitted slots counts =>
      have accepts := Step.accepts?_eq_some_iff.2 ⟨announced, earlier, known, admitted⟩
      exact absurd (none.symm.trans accepts) (Option.some_ne_none other).symm

/-! ## Runs -/

/-- Whether every peer is the one that was accepted last over its link, and is counted under
a network address of a physical host if it is at one. -/
def PeersCounted (manager : Manager) (steps : List Step) : Prop :=
  ∀ id slot peer, (run manager steps).slots.get? id = some slot → slot.peer = some peer →
    ∃ announced, lastAccepted? id manager steps = some announced ∧
      peer = slot.locate announced ∧
      (slot.IsAtHost announced → (countable slot.countedUnder).isSome)

/-- Whether a step accepts a peer that announces a physical host over a link that the
transport sees nowhere. -/
def Step.Shadows (step : Step) (manager : Manager) : Prop :=
  ∃ peer slot, step.accepts? manager = some peer ∧
    manager.slots.get? peer.link = some slot ∧ slot.Shadows peer

section Runs

variable {manager : Manager} {earlier : List Step} {step : Step}

/-- All peers stay counted in a step that shadows none. -/
theorem PeersCounted.concat (counted : PeersCounted manager earlier)
    (counts : ∀ id slot, (run manager earlier).slots.get? id = some slot → slot.Counts)
    (plain : ¬ step.Shadows (run manager earlier)) : PeersCounted manager (earlier ++ [step]) := by
  intro id slot peer found joined
  rw [run_append] at found
  rw [lastAccepted?_concat]
  cases accepts : step.accepts? (run manager earlier) with
  | none => exact counted id slot peer (Step.get?_of_accepts?_eq_none accepts found joined) joined
  | some announced =>
      obtain ⟨_, before, known, _⟩ := Step.accepts?_eq_some_iff.1 accepts
      have get? := Step.get?_of_accepts? accepts known id
      -- The only new slot is that of the accepted peer, and it is counted as the slot before it
      -- allows; every other link keeps its slot and the peer accepted last over it.
      by_cases own : announced.link = id
      · rw [if_pos own] at get?
        obtain rfl := Option.some.inj (found.symm.trans get?)
        refine ⟨announced, by simp [Option.filter, own], (Option.some.inj joined).symm, ?_⟩
        intro atHost
        apply (counts announced.link before known).isSome_accept atHost
        intro shadows
        exact plain ⟨announced, before, accepts, known, shadows⟩
      · rw [if_neg own] at get?
        have last : (some announced).filter (fun peer => peer.link == id) = none := by
          simp [Option.filter, own]
        rw [last, Option.none_or]
        exact counted id slot peer (get?.symm.trans found) joined

/-- A peer that is shadowed is not counted. -/
theorem Step.Shadows.not_peersCounted (shadows : step.Shadows (run manager earlier))
    (counts : ∀ id slot, (run manager earlier).slots.get? id = some slot → slot.Counts) :
    ¬ PeersCounted manager (earlier ++ [step]) := by
  intro counted
  obtain ⟨announced, before, accepts, known, hidden⟩ := shadows
  have found : (run manager (earlier ++ [step])).slots.get? announced.link =
      some (before.accept (before.locate announced)) := by
    rw [run_append]
    exact (Step.get?_of_accepts? accepts known announced.link).trans (if_pos rfl)
  obtain ⟨last, isLast, _, isSome⟩ := counted announced.link _ _ found rfl
  obtain rfl : announced = last := by
    simpa [lastAccepted?_concat, accepts, Option.filter] using isLast
  have uncounted := (counts announced.link before known).not_isSome_accept hidden
  exact Bool.false_ne_true (uncounted.symm.trans (isSome (.inr hidden.2)))

end Runs

/-- In every run, every peer is counted under a network address of a physical host if the
transport or the peer itself tells of one, if and only if no step accepts a peer that
announces a physical host over a link that the transport sees nowhere. -/
theorem peersCounted_iff_not_shadows (config : Config) (book : AddressBook)
    (steps : List Step) :
    (∀ earlier, earlier <+: steps → PeersCounted (Manager.new config book) earlier) ↔
      ∀ earlier step, earlier ++ [step] <+: steps →
        ¬ step.Shadows (run (Manager.new config book) earlier) := by
  constructor
  · intro counted earlier step initial shadows
    exact shadows.not_peersCounted (counts_run config book earlier)
      (counted (earlier ++ [step]) initial)
  · intro plain earlier initial
    induction earlier using List.reverseRecOn with
    | nil =>
        intro id slot peer found
        exact absurd found (Option.some_ne_none slot).symm
    | append_singleton earlier step hypothesis =>
        have before := hypothesis (prefix_of_initial initial)
        exact before.concat (counts_run config book earlier) (plain earlier step initial)

/-- Three peers announce one public network address over links that the transport sees
nowhere.  All of them are accepted, and none is counted there, although two are as many as
may be. -/
theorem crowd_seen_nowhere_uncounted :
    (run (atHost "1.1.1.1") (crowd fun _ => some .unknown)).peerCount = 3 ∧
      (run (atHost "1.1.1.1") (crowd fun _ => some .unknown)).config.perIpMax .relayed = 2 ∧
      (run (atHost "1.1.1.1") (crowd fun _ => some .unknown)).connectionCount
        (.ip "8.8.8.8") = 0 ∧
      ¬ PeersCounted (atHost "1.1.1.1") (crowd fun _ => some .unknown) := by
  refine ⟨by decide, by decide, by decide, ?_⟩
  intro counted
  have told : (lastAccepted? 1 (atHost "1.1.1.1") (crowd fun _ => some .unknown)).map
      (fun peer => peer.address.netAddress) = some (some (.ip "8.8.8.8")) := by
    decide
  have seated : ((run (atHost "1.1.1.1") (crowd fun _ => some .unknown)).slots.get? 1).map
      (fun slot => (slot.peer.isSome, slot.countedUnder)) = some (true, none) := by
    decide
  obtain ⟨slot, found, facts⟩ := Option.map_eq_some_iff.1 seated
  obtain ⟨joined, uncounted⟩ := Prod.mk.inj facts
  obtain ⟨peer, isPeer⟩ := Option.isSome_iff_exists.1 joined
  obtain ⟨announced, last, _, isCounted⟩ := counted 1 slot peer found isPeer
  rw [last, Option.map_some, Option.some.injEq] at told
  rw [uncounted] at isCounted
  exact Bool.false_ne_true (isCounted (.inr (congrArg (fun told => (countable told).isSome) told)))

end PeerOverlay.Manager
