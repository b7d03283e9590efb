import PeerOverlay.Proofs.Ip.Canonical
import PeerOverlay.Proofs.Manager.PeersPerIp

/-!
# Network addresses under which links are counted

What transports see is an address in canonical text.  What a peer announces is counted
as it is if the transport sees nothing, so a peer can bring a network address that is
not canonical, and nothing else can.
-/

namespace PeerOverlay

/-! ## Canonical addresses -/

namespace NetAddress

/-- Whether a network address is a text that is its own canonical text. -/
def Canonical (netAddress : NetAddress) : Prop :=
  ∃ text, netAddress = ip text ∧ Ip.sanitize text = .ok text

/-- The network addresses that a transport makes up. -/
inductive Seen : NetAddress → Prop where
  | parsed (text : String) (netAddress : NetAddress) (read : parse text = .ok netAddress) :
      Seen netAddress
  | unknown : Seen unknown

theorem canonical_of_parse {text : String} {netAddress : NetAddress}
    (read : parse text = .ok netAddress) : netAddress.Canonical := by
  unfold parse at read
  cases sanitized : Ip.sanitize text with
  | error error => simp [sanitized, Except.map] at read
  | ok sane =>
      rw [sanitized] at read
      exact ⟨sane, (Except.ok.inj read).symm, Ip.sanitize_of_sanitize sanitized⟩

theorem Seen.ofQuad {quad : Ip.Quad} {netAddress : NetAddress}
    (made : NetAddress.ofQuad quad = .ok netAddress) : Seen netAddress :=
  .parsed _ netAddress made

theorem Seen.ofGroups {groups : Ip.Groups} {netAddress : NetAddress}
    (made : NetAddress.ofGroups groups = .ok netAddress) : Seen netAddress :=
  .parsed _ netAddress made

/-- What a transport sees of a physical host is canonical. -/
theorem Seen.canonical {netAddress : NetAddress} (seen : Seen netAddress)
    (physical : netAddress.isPseudo = false) : netAddress.Canonical := by
  cases seen with
  | parsed text netAddress read => exact canonical_of_parse read
  | unknown => exact absurd physical (by decide)

end NetAddress

namespace Manager

/-- Whether links are counted under canonical addresses only. -/
def KeysCanonical (manager : Manager) : Prop :=
  ∀ netAddress, manager.connectionCounts.contains netAddress → netAddress.Canonical

/-- Whether every link that a transport sees at a physical host is counted. -/
def HostsCounted (manager : Manager) : Prop :=
  ∀ id slot, manager.slots.get? id = some slot → slot.countedUnder = none →
    countable slot.observed = none

/-- Whether the links of a step show what transports make up. -/
def Step.SeenByTransports (step : Step) : Prop :=
  ∀ id link, step.links.get? id = some link →
    ∀ netAddress, link.netAddress = some netAddress → netAddress.Seen

/-- Whether a step accepts a peer that announces a text that is not canonical, over a link
that is not counted and at no network address that the transport sees. -/
def Step.BringsText (step : Step) (manager : Manager) : Prop :=
  ∃ peer slot text, step.move.announcement? = some peer ∧
    manager.slots.get? peer.link = some slot ∧ slot.countedUnder = none ∧
    slot.observed = none ∧ peer.address.netAddress = some (.ip text) ∧
    Ip.sanitize text ≠ .ok text ∧
    manager.peerRefusal? step.around.now slot (slot.locate peer) = none

theorem isPseudo_of_countable {netAddress? : Option NetAddress} {netAddress : NetAddress}
    (counted : countable netAddress? = some netAddress) :
    netAddress? = some netAddress ∧ netAddress.isPseudo = false := by
  obtain ⟨same, physical⟩ := Option.filter_eq_some_iff.1 counted
  exact ⟨same, by simpa using physical⟩

/-- A slot that is not counted gets what its peer announces, if the transport sees
nothing. -/
theorem Slot.uncounted_locate {slot : Slot} {peer : Peer} {netAddress : NetAddress}
    (hosts : slot.countedUnder = none → countable slot.observed = none)
    (counted : slot.uncounted (slot.locate peer) = some netAddress) :
    slot.countedUnder = none ∧ slot.observed = none ∧
      peer.address.netAddress = some netAddress ∧ netAddress.isPseudo = false := by
  unfold uncounted at counted
  split at counted
  · simp at counted
  · next uncounted =>
      have open? : slot.countedUnder = none := by simpa using uncounted
      obtain ⟨same, physical⟩ := isPseudo_of_countable counted
      have located : resolve slot.observed peer.address.netAddress = some netAddress := same
      have unseen := hosts open?
      cases observed : slot.observed with
      | none =>
          rw [observed, resolve_none] at located
          exact ⟨open?, rfl, located, physical⟩
      | some seen =>
          rw [observed] at unseen located
          cases seen with
          | ip text => simp [countable, Option.filter, NetAddress.isPseudo] at unseen
          | unknown =>
              rw [resolve_of_public rfl] at located
              rw [← Option.some.inj located] at physical
              exact absurd physical (by decide)

/-- No step brings a key that is not canonical, unless it accepts a peer that announces
one. -/
theorem Step.keysCanonical {manager : Manager} {step : Step} (keys : KeysCanonical manager)
    (hosts : HostsCounted manager) (seen : step.SeenByTransports)
    (plain : ¬ step.BringsText manager) : KeysCanonical (step.apply manager) := by
  intro tested counted
  cases step.brings manager with
  | nothing fewer => exact keys tested (fewer.counts counted)
  | link id link handed opened slots counts =>
      rw [counts] at counted
      rcases (contains_elim_count manager _ tested).1 counted with new | before
      · obtain ⟨same, physical⟩ := isPseudo_of_countable new
        exact (seen id link opened tested same).canonical physical
      · exact keys tested before
  | peer peer slot announced known admitted slots counts =>
      rw [counts] at counted
      rcases (contains_elim_count manager _ tested).1 counted with new | before
      · obtain ⟨uncounted, unseen, told, physical⟩ :=
          Slot.uncounted_locate (hosts peer.link slot known) new
        cases tested with
        | ip text =>
            refine ⟨text, rfl, ?_⟩
            apply Classical.byContradiction
            intro other
            exact plain ⟨peer, slot, text, announced, known, uncounted, unseen, told, other,
              admitted⟩
        | unknown => exact absurd physical (by decide)
      · exact keys tested before

/-- The announced text becomes a key. -/
theorem Step.BringsText.not_keysCanonical {manager : Manager} {step : Step}
    (brings : step.BringsText manager) : ¬ KeysCanonical (step.apply manager) := by
  obtain ⟨peer, slot, text, announced, known, uncounted, unseen, told, other, admitted⟩ := brings
  have counts := (step.apply_of_admitted announced known admitted).2
  have new : slot.uncounted (slot.locate peer) = some (.ip text) := by
    have located : (slot.locate peer).address.netAddress = some (.ip text) := by
      show resolve slot.observed peer.address.netAddress = some (.ip text)
      rw [unseen, resolve_none, told]
    rw [Slot.uncounted, uncounted, located]
    rfl
  intro keys
  have counted : (step.apply manager).connectionCounts.contains (.ip text) := by
    rw [counts]
    exact (contains_elim_count manager _ _).2 (.inl new)
  obtain ⟨own, same, sane⟩ := keys (.ip text) counted
  rw [← NetAddress.ip.inj same] at sane
  exact other sane

/-! ## Runs -/

theorem hostsCounted_run (config : Config) (book : AddressBook) (steps : List Step) :
    HostsCounted (run (Manager.new config book) steps) := by
  apply slots_run
  · intro link uncounted
    exact uncounted
  · intro slot peer hosts uncounted
    apply hosts
    unfold Slot.accept at uncounted
    cases counted : slot.countedUnder with
    | none => rfl
    | some netAddress => simp [counted] at uncounted

/-- In every run in which transports see parsed addresses, the placeholder or nothing,
links are counted under canonical addresses only, if and only if no step accepts a peer
that announces a text that is not canonical over a link without a network address. -/
theorem keysCanonical_iff_not_bringsText (config : Config) (book : AddressBook)
    (steps : List Step) (seen : ∀ step ∈ steps, step.SeenByTransports) :
    (∀ earlier, earlier <+: steps → KeysCanonical (run (Manager.new config book) earlier)) ↔
      ∀ earlier step, earlier ++ [step] <+: steps →
        ¬ step.BringsText (run (Manager.new config book) earlier) := by
  constructor
  · intro keys earlier step initial brings
    apply brings.not_keysCanonical
    have after := keys (earlier ++ [step]) initial
    rwa [run_append] at after
  · intro plain
    apply run_keeps_along (P := KeysCanonical) (A := fun step manager =>
      HostsCounted manager ∧ step.SeenByTransports ∧ ¬ step.BringsText manager)
    · intro step manager allowed keys
      exact step.keysCanonical keys allowed.1 allowed.2.1 allowed.2.2
    · intro earlier step initial
      have member : step ∈ steps :=
        initial.subset (List.mem_append_right earlier (List.mem_singleton_self step))
      exact ⟨hostsCounted_run config book earlier, seen step member,
        plain earlier step initial⟩
    · intro netAddress counted
      exact absurd counted Bool.false_ne_true

/-- A host comes over a socket, and then a peer through a link on which the transport
sees no network address. -/
def bothSeenAndUnseen (announced : Version) : List Step :=
  let links : Links :=
    (Table.empty.insert 1 (.opened 1 .inbound .direct (some (.ip "2.2.2.2")) none)).insert 2
      (.opened 2 .inbound .relayed none none)
  let peer (link : LinkId) (address : PeerAddress) : Peer := {
    link := link
    address := address
    version := announced.version
    startHeight := announced.startHeight
    totalWork := announced.totalWork
  }
  [.plain links (.event (.connection 1)),
    .plain links (.event (.handshake (peer 1 (hostAddress "2.2.2.2")))),
    .plain links (.event (.connection 2)),
    .plain links (.event (.handshake (peer 2 announced.peerAddress)))]

/-- What a relayed peer says of itself, with a text as its network address. -/
def versionAt (text : String) : Version where
  version := 2
  peerAddress := (PeerAddress.fresh (.relayed "s") .full 0).withNetAddress (.ip text)
  genesisHash := ""
  startHeight := 0
  totalWork := 0

theorem seenByTransports_bothSeenAndUnseen (announced : Version) :
    ∀ step ∈ bothSeenAndUnseen announced, step.SeenByTransports := by
  have links : ∀ step ∈ bothSeenAndUnseen announced, step.links =
      (Table.empty.insert 1 (.opened 1 .inbound .direct (some (.ip "2.2.2.2")) none)).insert 2
        (.opened 2 .inbound .relayed none none) := by
    intro step member
    simp only [bothSeenAndUnseen, List.mem_cons, List.not_mem_nil, or_false] at member
    rcases member with rfl | rfl | rfl | rfl <;> rfl
  intro step member id link opened netAddress same
  rw [links step member, Table.get?_insert, Table.get?_insert] at opened
  split at opened
  · rw [← Option.some.inj opened] at same
    exact absurd same (Option.some_ne_none _).symm
  · split at opened
    · rw [← Option.some.inj opened] at same
      rw [← Option.some.inj same]
      exact .parsed "2.2.2.2" _ (by decide)
    · exact absurd opened (Option.some_ne_none link).symm

theorem keysCanonical_announcedCanonical :
    (∀ step ∈ bothSeenAndUnseen (versionAt "3.3.3.3"), step.SeenByTransports) ∧
      (run (atHost "1.1.1.1") (bothSeenAndUnseen (versionAt "3.3.3.3"))).connectionCounts.contains
          (.ip "3.3.3.3") ∧
        KeysCanonical (run (atHost "1.1.1.1") (bothSeenAndUnseen (versionAt "3.3.3.3"))) := by
  have seen := seenByTransports_bothSeenAndUnseen (versionAt "3.3.3.3")
  refine ⟨seen, by decide, ?_⟩
  refine (keysCanonical_iff_not_bringsText (.full (hostAddress "1.1.1.1") "") .empty _ seen).2
    ?_ _ (List.prefix_refl _)
  rintro earlier step initial ⟨peer, slot, text, announced, _, _, _, told, other, _⟩
  have member : step ∈ bothSeenAndUnseen (versionAt "3.3.3.3") :=
    initial.subset (List.mem_append_right earlier (List.mem_singleton_self step))
  have canonical : text = "3.3.3.3" := by
    simp only [bothSeenAndUnseen, List.mem_cons, List.not_mem_nil, or_false] at member
    rcases member with rfl | rfl | rfl | rfl
    · exact absurd announced (Option.some_ne_none peer).symm
    · rw [← Option.some.inj announced] at told
      exact absurd told (Option.some_ne_none _).symm
    · exact absurd announced (Option.some_ne_none peer).symm
    · rw [← Option.some.inj announced] at told
      exact (NetAddress.ip.inj (Option.some.inj told)).symm
  rw [canonical] at other
  exact other (by decide)

end Manager

end PeerOverlay
