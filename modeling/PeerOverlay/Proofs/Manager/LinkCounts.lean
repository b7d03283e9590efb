import PeerOverlay.Proofs.Manager.Slots

/-!
# Links under network addresses

A link is counted when it is taken in, or when its peer is accepted, or never.
It is released once, when its slot is vacated.  So the counts are the numbers of
slots that are counted under each network address, as long as no link is handed
over twice.
-/

namespace PeerOverlay.Manager

/-- The number of links whose slot is counted under a network address. -/
def tally (manager : Manager) (netAddress : NetAddress) : Nat :=
  manager.slots.countRows fun _ slot => slot.countedUnder == some netAddress

/-- The number of links over a protocol whose slot is counted under a network
address. -/
def tallyOver (manager : Manager) (protocol : Protocol) (netAddress : NetAddress) : Nat :=
  manager.slots.countRows fun _ slot =>
    slot.countedUnder == some netAddress && slot.protocol == protocol

theorem tallyOver_le_tally (manager : Manager) (protocol : Protocol) (netAddress : NetAddress) :
    manager.tallyOver protocol netAddress ≤ manager.tally netAddress := by
  apply Table.countRows_le_countRows
  intro id slot both
  exact (Bool.and_eq_true_iff.1 both).1

theorem share_countedUnder (netAddress : NetAddress) (id : LinkId) (found : Option Slot) :
    Table.share (fun _ slot => slot.countedUnder == some netAddress) id found =
      if found.bind Slot.countedUnder = some netAddress then 1 else 0 := by
  cases found <;> simp

theorem countable_ne_unknown (netAddress : Option NetAddress) :
    countable netAddress ≠ some .unknown := by
  intro same
  have physical := (Option.filter_eq_some_iff.1 same).2
  exact absurd physical (by decide)

/-! ## Counts that go up and down -/

section Counts

variable {manager before after : Manager}

theorem connectionCount_congr (counts : after.connectionCounts = before.connectionCounts)
    (tested : NetAddress) : after.connectionCount tested = before.connectionCount tested := by
  unfold connectionCount
  rw [counts]

theorem connectionCount_elim_count (manager : Manager) (netAddress : Option NetAddress)
    (tested : NetAddress) :
    (netAddress.elim manager manager.count).connectionCount tested =
      manager.connectionCount tested + if netAddress = some tested then 1 else 0 := by
  cases netAddress with
  | none => simp
  | some netAddress =>
      have counted := manager.connectionCount_count netAddress tested
      simpa [eq_comm] using counted

theorem connectionCount_elim_release (manager : Manager) (netAddress : Option NetAddress)
    (tested : NetAddress) :
    (netAddress.elim manager manager.release).connectionCount tested =
      manager.connectionCount tested - if netAddress = some tested then 1 else 0 := by
  cases netAddress with
  | none => simp
  | some netAddress =>
      have released := manager.connectionCount_release netAddress tested
      simpa [eq_comm] using released

/-- Counting stores no zero. -/
theorem stored_elim_count (stored : ∀ tested, manager.connectionCounts.get? tested ≠ some 0)
    (netAddress : Option NetAddress) (tested : NetAddress) :
    (netAddress.elim manager manager.count).connectionCounts.get? tested ≠ some 0 := by
  cases netAddress with
  | none => exact stored tested
  | some netAddress =>
      rw [Option.elim_some, count, Table.get?_insert]
      split
      · simp
      · exact stored tested

/-- Releasing the last link takes its network address away. -/
theorem stored_elim_release (stored : ∀ tested, manager.connectionCounts.get? tested ≠ some 0)
    (netAddress : Option NetAddress) (tested : NetAddress) :
    (netAddress.elim manager manager.release).connectionCounts.get? tested ≠ some 0 := by
  cases netAddress with
  | none => exact stored tested
  | some netAddress =>
      rw [Option.elim_some, release]
      dsimp only
      split
      · rw [Table.get?_erase]
        split
        · simp
        · exact stored tested
      · next several =>
          rw [Table.get?_insert]
          split
          · rw [Ne, Option.some.injEq]
            omega
          · exact stored tested

end Counts

/-! ## Slots that are counted under one more network address -/

/-- Whether a slot takes the place of another one, if there is one, and is
counted under a network address only if the other one was not counted. -/
structure Extends (old : Option Slot) (slot : Slot) (netAddress : Option NetAddress) : Prop where
  under : slot.countedUnder = (old.bind Slot.countedUnder).or netAddress
  once : (old.bind Slot.countedUnder).isSome → netAddress = none
  protocol : ∀ earlier, old = some earlier → earlier.protocol = slot.protocol
  physical : netAddress ≠ some .unknown

namespace Extends

variable {old : Option Slot} {slot : Slot} {netAddress : Option NetAddress}

theorem ofLink (link : Link) : Extends none (.ofLink link) (countable link.netAddress) where
  under := rfl
  once := by
    intro counted
    simp at counted
  protocol := by
    intro earlier absent
    simp at absent
  physical := countable_ne_unknown link.netAddress

theorem accept (slot : Slot) (peer : Peer) :
    Extends (some slot) (slot.accept peer) (slot.uncounted peer) where
  under := by
    unfold Slot.accept
    cases counted : slot.countedUnder <;> simp [counted]
  once := by
    intro counted
    exact if_pos counted
  protocol := by
    intro earlier same
    rw [← Option.some.inj same]
    rfl
  physical := by
    unfold Slot.uncounted
    split
    · exact (Option.some_ne_none _).symm
    · exact countable_ne_unknown peer.address.netAddress

/-- The slot adds to a tally what it is newly counted under. -/
theorem tally (new : Extends old slot netAddress) (id : LinkId) (tested : NetAddress) :
    (if slot.countedUnder == some tested then 1 else 0) =
      Table.share (fun _ slot => slot.countedUnder == some tested) id old +
        if netAddress = some tested then 1 else 0 := by
  rw [share_countedUnder, new.under]
  cases counted : old.bind Slot.countedUnder with
  | none => simp
  | some earlier =>
      have settled : netAddress = none := new.once (by simp [counted])
      simp [settled]

/-- Over a protocol other than its own the slot adds nothing. -/
theorem tallyOver (new : Extends old slot netAddress) (id : LinkId) (protocol : Protocol)
    (tested : NetAddress) :
    (if slot.countedUnder == some tested && slot.protocol == protocol then 1 else 0) ≤
      Table.share (fun _ slot => slot.countedUnder == some tested && slot.protocol == protocol)
          id old +
        if netAddress = some tested ∧ slot.protocol = protocol then 1 else 0 := by
  by_cases own : slot.protocol = protocol
  · have added := new.tally id tested
    cases old with
    | none => simp_all
    | some earlier =>
        have same := new.protocol earlier rfl
        simp_all
  · simp [own]

end Extends

/-! ## Exact counts -/

/-- Whether the counts are the numbers of counted slots, no network address is
stored with a count of zero, and no protocol has more links than it may. -/
structure LinksCounted (manager : Manager) : Prop where
  equal : ∀ netAddress, manager.connectionCount netAddress = manager.tally netAddress
  stored : ∀ netAddress, manager.connectionCounts.get? netAddress ≠ some 0
  named : manager.tally .unknown = 0
  capped : ∀ protocol netAddress,
    manager.tallyOver protocol netAddress ≤ manager.config.perIpMax protocol

namespace LinksCounted

variable {before after manager : Manager} {handed : Option LinkId}

theorem new (config : Config) (book : AddressBook) :
    LinksCounted (Manager.new config book) where
  equal := fun _ => rfl
  stored := by
    intro netAddress
    exact (Option.some_ne_none 0).symm
  named := rfl
  capped := fun _ _ => Nat.zero_le _

/-- What is stored under a network address is the number of its counted slots. -/
theorem get?_connectionCounts (counted : LinksCounted manager) (netAddress : NetAddress) :
    manager.connectionCounts.get? netAddress =
      if manager.tally netAddress = 0 then none else some (manager.tally netAddress) := by
  have equal := counted.equal netAddress
  have positive := counted.stored netAddress
  unfold connectionCount at equal
  cases stored : manager.connectionCounts.get? netAddress with
  | none =>
      rw [stored, Option.getD_none] at equal
      rw [← equal, if_pos rfl]
  | some number =>
      rw [stored] at equal positive
      rw [Option.getD_some] at equal
      have nonzero : number ≠ 0 := fun zero => positive (congrArg some zero)
      rw [← equal, if_neg nonzero]

/-- A network address is stored if and only if some slot is counted under it. -/
theorem contains_connectionCounts_iff (counted : LinksCounted manager)
    (netAddress : NetAddress) :
    manager.connectionCounts.contains netAddress ↔
      ∃ id slot, manager.slots.get? id = some slot ∧ slot.countedUnder = some netAddress := by
  have positive := manager.slots.countRows_pos_iff fun _ slot =>
    slot.countedUnder == some netAddress
  simp only [beq_iff_eq] at positive
  rw [← positive, ← tally, Table.contains, counted.get?_connectionCounts]
  by_cases zero : manager.tally netAddress = 0
  · simp [zero]
  · simp only [if_neg zero, Option.isSome_some, true_iff]
    omega

theorem kept (counted : LinksCounted before) (same : SameSeats before after) :
    LinksCounted after := by
  obtain ⟨equal, stored, named, capped⟩ := counted
  obtain ⟨config, slots, counts⟩ := same
  constructor
  · intro netAddress
    rw [connectionCount, tally, counts, slots]
    exact equal netAddress
  · rw [counts]
    exact stored
  · rw [tally, slots]
    exact named
  · intro protocol netAddress
    rw [tallyOver, config, slots]
    exact capped protocol netAddress

/-- A slot is counted under one more network address only if there is room. -/
theorem seated (counted : LinksCounted before) {id : LinkId} {slot : Slot}
    {netAddress : Option NetAddress}
    (new : Extends (before.slots.get? id) slot netAddress)
    (room : netAddress.any (before.isFull slot.protocol) = false)
    (config : after.config = before.config)
    (slots : after.slots = before.slots.insert id slot)
    (counts : after.connectionCounts =
      (netAddress.elim before before.count).connectionCounts) : LinksCounted after := by
  have tallied (tested : NetAddress) :
      after.tally tested = before.tally tested + if netAddress = some tested then 1 else 0 := by
    have inserted := before.slots.countRows_insert
      (fun _ slot => slot.countedUnder == some tested) id slot
    have added := new.tally id tested
    unfold tally
    rw [slots]
    omega
  constructor
  · intro tested
    rw [connectionCount_congr counts, connectionCount_elim_count, counted.equal, tallied]
  · rw [counts]
    exact stored_elim_count counted.stored netAddress
  · rw [tallied, counted.named, if_neg new.physical]
  · intro protocol tested
    have inserted := before.slots.countRows_insert
      (fun _ slot => slot.countedUnder == some tested && slot.protocol == protocol) id slot
    have added := new.tallyOver id protocol tested
    have capped := counted.capped protocol tested
    rw [config]
    unfold tallyOver at capped ⊢
    rw [slots]
    -- The room is checked against all protocols together, so it is there for one of them.
    by_cases own : netAddress = some tested ∧ slot.protocol = protocol
    · obtain ⟨rfl, rfl⟩ := own
      have free : before.connectionCount tested < before.config.perIpMax slot.protocol :=
        Nat.lt_of_not_le (of_decide_eq_false room)
      have fewer := before.tallyOver_le_tally slot.protocol tested
      have equal := counted.equal tested
      unfold tallyOver at fewer
      simp only [and_self, if_true] at added
      omega
    · rw [if_neg own] at added
      omega

/-- A slot that goes releases what it was counted under. -/
theorem vacated (counted : LinksCounted before) {id : LinkId} {slot : Slot}
    (known : before.slots.get? id = some slot) (config : after.config = before.config)
    (slots : after.slots = before.slots.erase id)
    (counts : after.connectionCounts =
      (slot.countedUnder.elim before before.release).connectionCounts) :
    LinksCounted after := by
  have tallied (tested : NetAddress) :
      after.tally tested + (if slot.countedUnder = some tested then 1 else 0) =
        before.tally tested := by
    have erased := before.slots.countRows_erase
      (fun _ slot => slot.countedUnder == some tested) id
    rw [known, share_countedUnder] at erased
    unfold tally
    rw [slots]
    exact erased
  constructor
  · intro tested
    have left := tallied tested
    rw [connectionCount_congr counts, connectionCount_elim_release, counted.equal]
    omega
  · rw [counts]
    exact stored_elim_release counted.stored slot.countedUnder
  · have left := tallied .unknown
    have named := counted.named
    omega
  · intro protocol tested
    have erased := before.slots.countRows_erase
      (fun _ slot => slot.countedUnder == some tested && slot.protocol == protocol) id
    have capped := counted.capped protocol tested
    rw [config]
    unfold tallyOver at capped ⊢
    rw [slots]
    omega

theorem reseated (counted : LinksCounted before) (reseated : Reseated handed before after)
    (fresh : ∀ id, handed = some id → before.slots.get? id = none) : LinksCounted after := by
  cases reseated with
  | kept same => exact counted.kept same
  | takenIn id link new room config slots counts =>
      have extension : Extends (before.slots.get? id) (.ofLink link)
          (countable link.netAddress) := by
        rw [fresh id new]
        exact Extends.ofLink link
      exact counted.seated extension room config slots counts
  | accepted slot peer known room alone few config slots counts =>
      have extension : Extends (before.slots.get? peer.link) (slot.accept peer)
          (slot.uncounted peer) := by
        rw [known]
        exact Extends.accept slot peer
      exact counted.seated extension room config slots counts
  | vacated id slot known config slots counts => exact counted.vacated known config slots counts

end LinksCounted

/-! ## Links that are handed over once -/

/-- The links that are handed over in a run, in order. -/
def handedOver (steps : List Step) : List LinkId :=
  steps.filterMap fun step => step.move.connection?

theorem handedOver_cons (step : Step) (rest : List Step) :
    handedOver (step :: rest) = step.move.connection?.toList ++ handedOver rest :=
  filterMap_cons_eq _ step rest

theorem handedOver_concat (earlier : List Step) (step : Step) :
    handedOver (earlier ++ [step]) = handedOver earlier ++ step.move.connection?.toList :=
  filterMap_concat_eq _ earlier step

theorem Reseated.get?_slots_eq_none {before after : Manager} {handed : Option LinkId}
    (reseated : Reseated handed before after) {tested : LinkId}
    (absent : before.slots.get? tested = none) (other : handed ≠ some tested) :
    after.slots.get? tested = none := by
  cases reseated with
  | kept same =>
      rw [same.slots]
      exact absent
  | takenIn id link new room config slots counts =>
      have different : id ≠ tested := by
        rintro rfl
        exact other new
      rw [slots, Table.get?_insert, if_neg different]
      exact absent
  | accepted slot peer known room alone few config slots counts =>
      have different : peer.link ≠ tested := by
        rintro rfl
        simp [absent] at known
      rw [slots, Table.get?_insert, if_neg different]
      exact absent
  | vacated id slot known config slots counts =>
      rw [slots, Table.get?_erase]
      split
      · rfl
      · exact absent

theorem linksCounted_run {manager : Manager} {steps : List Step}
    (counted : LinksCounted manager)
    (fresh : ∀ id ∈ handedOver steps, manager.slots.get? id = none)
    (distinct : (handedOver steps).Nodup) : LinksCounted (run manager steps) := by
  induction steps generalizing manager with
  | nil => exact counted
  | cons step rest hypothesis =>
      rw [handedOver_cons] at fresh distinct
      cases handed : step.move.connection? with
      | none =>
          rw [handed, Option.toList_none, List.nil_append] at fresh distinct
          have kept := step.keeps_of_reseated
            (P := fun reached => LinksCounted reached ∧
              ∀ id ∈ handedOver rest, reached.slots.get? id = none)
            (fun reseated holds => by
              rw [handed] at reseated
              refine ⟨holds.1.reseated reseated (by simp), ?_⟩
              intro id member
              exact reseated.get?_slots_eq_none (holds.2 id member) (by simp))
            ⟨counted, fresh⟩
          exact hypothesis kept.1 kept.2 distinct
      | some id =>
          rw [handed, Option.toList_some, List.singleton_append] at fresh distinct
          obtain ⟨once, later⟩ := List.nodup_cons.1 distinct
          -- Such a step does nothing else, so the link is still new when it gets its slot.
          have reseated := Step.reseated_of_connection? handed manager
          apply hypothesis _ _ later
          · apply counted.reseated reseated
            intro new same
            rw [← Option.some.inj same]
            exact fresh id (List.mem_cons_self ..)
          · intro other member
            apply reseated.get?_slots_eq_none (fresh other (List.mem_cons_of_mem id member))
            intro same
            rw [Option.some.inj same] at once
            exact once member

/-- In every run in which no link is handed over twice, a network address is
stored if and only if some link is counted under it, with the number of those
links.  The placeholder is not stored, and no protocol has more links of one
network address than configured. -/
theorem connectionCounts_eq_tally (config : Config) (book : AddressBook) (steps : List Step)
    (distinct : (handedOver steps).Nodup) :
    (∀ netAddress,
        (run (Manager.new config book) steps).connectionCounts.contains netAddress ↔
          ∃ id slot, (run (Manager.new config book) steps).slots.get? id = some slot ∧
            slot.countedUnder = some netAddress) ∧
      (∀ netAddress,
        (run (Manager.new config book) steps).connectionCounts.get? netAddress =
          if (run (Manager.new config book) steps).tally netAddress = 0 then none
          else some ((run (Manager.new config book) steps).tally netAddress)) ∧
      (run (Manager.new config book) steps).connectionCounts.get? .unknown = none ∧
      ∀ protocol netAddress,
        (run (Manager.new config book) steps).tallyOver protocol netAddress ≤
          config.perIpMax protocol := by
  have counted := linksCounted_run (LinksCounted.new config book) (fun _ _ => rfl) distinct
  have stored := counted.get?_connectionCounts
  refine ⟨counted.contains_connectionCounts_iff, stored, ?_, ?_⟩
  · rw [stored .unknown, if_pos counted.named]
  · intro protocol netAddress
    have capped := counted.capped protocol netAddress
    rw [config_run] at capped
    exact capped

/-- Two links from one host, whose second one shows no network address. -/
def linkPair : Links :=
  (Table.empty.insert 1 (.opened 1 .inbound .direct (some (.ip "2.2.2.2")) none)).insert 2
    (.opened 2 .inbound .relayed none none)

/-- The second link is counted when its peer announces itself, and then the
first one is closed. -/
def countedLate : List Step :=
  [.plain linkPair (.event (.connection 1)),
    .plain linkPair (.event (.connection 2)),
    .plain linkPair (.event (.handshake
      { link := 2
        address := (PeerAddress.fresh (.relayed "2") .full 0).withNetAddress (.ip "2.2.2.2")
        version := 2
        startHeight := 0
        totalWork := 0 })),
    .plain linkPair (.event (.closed 1 true))]

theorem connectionCounts_countedLate :
    (handedOver countedLate).Nodup ∧
      (run (atHost "1.1.1.1") countedLate).tally (.ip "2.2.2.2") = 1 ∧
        (run (atHost "1.1.1.1") countedLate).connectionCounts.get? (.ip "2.2.2.2") = some 1 := by
  have distinct : (handedOver countedLate).Nodup := by decide
  have one : (run (atHost "1.1.1.1") countedLate).tally (.ip "2.2.2.2") = 1 := by decide
  have stored : (run (atHost "1.1.1.1") countedLate).connectionCounts.get? (.ip "2.2.2.2") =
      if (run (atHost "1.1.1.1") countedLate).tally (.ip "2.2.2.2") = 0 then none
      else some ((run (atHost "1.1.1.1") countedLate).tally (.ip "2.2.2.2")) :=
    (connectionCounts_eq_tally _ _ countedLate distinct).2.1 (.ip "2.2.2.2")
  rw [one] at stored
  exact ⟨distinct, one, stored⟩

end PeerOverlay.Manager
