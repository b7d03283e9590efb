import Mathlib.Data.Nat.Find
import PeerOverlay.Proofs.AddressBook.Patience
import PeerOverlay.Proofs.Manager.Run

/-!
# Checks that cause checks

An attempt that is refused causes another check of the number of peers, and that check may try
another address, or the same one again.  These checks come to rest, because each refused attempt
takes away one of the failures that the address book has still to bear.
-/

namespace PeerOverlay.Manager

/-! ## One check -/

/-- Whether an effect asks for another check of the number of peers. -/
def Effect.isRecheck : Effect → Bool
  | .recheck _ => true
  | _ => false

/-- How many more checks of the number of peers a turn asks for. -/
def Turn.rechecks (turn : Turn) : Nat :=
  turn.effects.countP Effect.isRecheck

@[simp]
theorem Turn.rechecks_emit (turn : Turn) (effect : Effect) :
    (turn.emit effect).rechecks = turn.rechecks + if effect.isRecheck then 1 else 0 := by
  rw [Turn.rechecks, Turn.emit, List.countP_append, List.countP_singleton]
  rfl

/-- Whether the check of the number of peers makes an attempt that is refused. -/
def Refuses (around : Surroundings) (turn : Turn) : Prop :=
  turn.manager.wantsConnection = true ∧
    ∃ address error,
      turn.manager.book.pick? turn.links.isOpen around.now around.pickLots = some address ∧
        (connectTo around address turn).1 = .error error

/-- What comes of an attempt.  If it is refused, that counts against the address and causes a
check; if it is started, it causes none. -/
inductive Tried (address : PeerAddress) (before : Turn) (outcome : Except DialError Unit)
    (after : Turn) : Prop where
  | started (ok : outcome = .ok ()) (rechecks : after.rechecks = before.rechecks)
  | refused (error : DialError) (failed : outcome = .error error)
      (manager : after.manager =
        { before.manager with book := before.manager.book.refuse address })
      (rechecks : after.rechecks = before.rechecks + 1)

theorem tried_connectTo (around : Surroundings) (address : PeerAddress) (turn : Turn) :
    Tried address turn (connectTo around address turn).1 (connectTo around address turn).2 := by
  unfold connectTo
  dsimp only
  split
  · exact .refused _ rfl rfl (Turn.rechecks_emit _ _)
  · next connector via _ =>
      cases starts : connector.starts address via with
      | true => exact .started rfl (Turn.rechecks_emit _ _)
      | false =>
          refine .refused _ rfl rfl ?_
          exact (Turn.rechecks_emit _ _).trans (congrArg (· + 1) (Turn.rechecks_emit _ _))

/-- What comes of a check of the number of peers. -/
inductive Rechecked (around : Surroundings) (before after : Turn) : Prop where
  | refused (refuses : Refuses around before) (address : PeerAddress)
      (picked : before.manager.book.pick? before.links.isOpen around.now around.pickLots =
        some address)
      (manager : after.manager =
        { before.manager with book := before.manager.book.refuse address })
      (rechecks : after.rechecks = before.rechecks + 1)
  | quiet (content : ¬ Refuses around before) (rechecks : after.rechecks = before.rechecks)

theorem rechecked_checkPeerCount (around : Surroundings) (turn : Turn) :
    Rechecked around turn (checkPeerCount around turn) := by
  unfold checkPeerCount
  split
  · next wants =>
      cases picked : turn.manager.book.pick? turn.links.isOpen around.now around.pickLots with
      | none =>
          refine .quiet ?_ rfl
          rintro ⟨_, address, error, proposed, _⟩
          rw [picked] at proposed
          cases proposed
      | some address =>
          rcases tried_connectTo around address turn with
            ⟨ok, rechecks⟩ | ⟨error, failed, manager, rechecks⟩
          · refine .quiet ?_ rechecks
            rintro ⟨_, other, error, proposed, refused⟩
            obtain rfl : address = other := Option.some.inj (picked.symm.trans proposed)
            rw [ok] at refused
            cases refused
          · exact .refused ⟨wants, address, error, picked, failed⟩ address picked manager rechecks
  · next content =>
      exact .quiet (fun refuses => content refuses.1) rfl

/-! ## Checks one after another -/

section Checks

variable (around : Nat → Surroundings) (links : Nat → Links) (manager : Manager)

/-- The manager after a number of checks, with what it finds around it and the links as they are
at each of them. -/
def afterChecks : Nat → Manager
  | 0 => manager
  | count + 1 =>
      (handle (around count) .checkPeerCount (.start (afterChecks count) (links count))).manager

/-- The turn before a check. -/
def beforeCheck (check : Nat) : Turn :=
  .start (afterChecks around links manager check) (links check)

/-- The turn that a check makes. -/
def checkTurn (check : Nat) : Turn :=
  handle (around check) .checkPeerCount (beforeCheck around links manager check)

theorem rechecked_checkTurn (check : Nat) :
    Rechecked (around check) (beforeCheck around links manager check)
      (checkTurn around links manager check) :=
  rechecked_checkPeerCount (around check) (beforeCheck around links manager check)

/-- A check causes exactly one other if it makes an attempt that is refused, and none if not. -/
theorem rechecks_checkTurn (check : Nat) :
    (Refuses (around check) (beforeCheck around links manager check) ∧
      (checkTurn around links manager check).rechecks = 1) ∨
    (¬ Refuses (around check) (beforeCheck around links manager check) ∧
      (checkTurn around links manager check).rechecks = 0) := by
  rcases rechecked_checkTurn around links manager check with
    ⟨refuses, _, _, _, rechecks⟩ | ⟨content, rechecks⟩
  · exact .inl ⟨refuses, rechecks⟩
  · exact .inr ⟨content, rechecks⟩

variable {around links manager}

/-- As long as every check so far made an attempt that was refused, each of them took away one
of the failures to come, and the routes are as they were. -/
theorem patience_afterChecks
    (closing : ∀ check link, manager.book.leadsThrough link = true →
      (links check).isOpen link = true → (links 0).isOpen link = true)
    (count : Nat)
    (refused : ∀ check < count, Refuses (around check) (beforeCheck around links manager check)) :
    (afterChecks around links manager count).book.routes = manager.book.routes ∧
      (afterChecks around links manager count).book.patience (links 0).isOpen (around 0).now +
        count ≤ manager.book.patience (links 0).isOpen (around 0).now := by
  induction count with
  | zero => exact ⟨rfl, Nat.le_refl _⟩
  | succ count hypothesis =>
      obtain ⟨routes, bound⟩ :=
        hypothesis fun check earlier => refused check (Nat.lt_succ_of_lt earlier)
      rcases rechecked_checkTurn around links manager count with
        ⟨_, address, picked, next, _⟩ | ⟨content, _⟩
      · have book : (afterChecks around links manager (count + 1)).book =
            (afterChecks around links manager count).book.refuse address :=
          congrArg Manager.book next
        obtain ⟨entry, found, eligible⟩ := AddressBook.exists_of_pick? picked
        -- What may be proposed now could be proposed at the first check, by which failures are
        -- counted.
        have eligibleFirst : (afterChecks around links manager count).book.isEligible
            (links 0).isOpen (around 0).now entry = true := by
          refine AddressBook.isEligible_of_fewer ?_ eligible
          intro link leads
          refine closing count link ?_
          unfold AddressBook.leadsThrough at leads ⊢
          rwa [← routes]
        have fewer : ((afterChecks around links manager count).book.refuse address).patience
              (links 0).isOpen (around 0).now <
            (afterChecks around links manager count).book.patience (links 0).isOpen
              (around 0).now :=
          AddressBook.patience_refuse found eligibleFirst
        rw [book]
        exact ⟨routes, by omega⟩
      · exact absurd (refused count (Nat.lt_succ_self count)) content

/-- There is a check that causes none. -/
theorem exists_rechecks_eq_zero
    (closing : ∀ check link, manager.book.leadsThrough link = true →
      (links check).isOpen link = true → (links 0).isOpen link = true) :
    ∃ check, (checkTurn around links manager check).rechecks = 0 := by
  apply Classical.byContradiction
  intro endless
  have refused (check : Nat) :
      Refuses (around check) (beforeCheck around links manager check) := by
    rcases rechecks_checkTurn around links manager check with
      ⟨refuses, _⟩ | ⟨_, none⟩
    · exact refuses
    · exact absurd ⟨check, none⟩ endless
  have bound := (patience_afterChecks closing
    (manager.book.patience (links 0).isOpen (around 0).now + 1) fun check _ => refused check).2
  omega

/-- The checks of the number of peers come to rest.  Whatever addresses are drawn, whatever the
connectors start and whichever links close meanwhile, each check up to the last one makes an
attempt that is refused and so causes the next check, the last one causes none, and the attempts
are no more than the failures to come. -/
theorem checks_come_to_rest
    (closing : ∀ check link, manager.book.leadsThrough link = true →
      (links check).isOpen link = true → (links 0).isOpen link = true) :
    ∃ last ≤ manager.book.patience (links 0).isOpen (around 0).now,
      (∀ check < last,
        Refuses (around check) (beforeCheck around links manager check) ∧
          (checkTurn around links manager check).rechecks = 1) ∧
      ¬ Refuses (around last) (beforeCheck around links manager last) ∧
      (checkTurn around links manager last).rechecks = 0 := by
  have ends : ∃ check, (checkTurn around links manager check).rechecks = 0 :=
    exists_rechecks_eq_zero closing
  have causing : ∀ check < Nat.find ends,
      Refuses (around check) (beforeCheck around links manager check) ∧
        (checkTurn around links manager check).rechecks = 1 := by
    intro check earlier
    rcases rechecks_checkTurn around links manager check with
      causes | ⟨_, none⟩
    · exact causes
    · exact absurd none (Nat.find_min ends earlier)
  have bound := (patience_afterChecks closing (Nat.find ends)
    fun check earlier => (causing check earlier).1).2
  refine ⟨Nat.find ends, by omega, causing, ?_⟩
  rcases rechecks_checkTurn around links manager
    (Nat.find ends) with ⟨_, one⟩ | rest
  · rw [Nat.find_spec ends] at one
    cases one
  · exact rest

end Checks

/-- A manager that knows a host and a peer behind a link, and wants connections. -/
def seeker : Manager :=
  { atHost "1.1.1.1" with
    autoConnect := true
    book := ((AddressBook.withLocal (.direct "1.1.1.1" 8443)).ingest 1
      [hostAddress "2.2.2.2", .fresh (.relayed "bbbb") .full 0]).2 }

/-- Sockets are started from the third check on, and no connector goes through links. -/
def refusesTwice (check : Nat) : Surroundings where
  now := check
  connectors := { direct := some (.socket (2 ≤ check)), relayed := none }
  pickLots := [check]
  relayLots := []

/-- Link 1 is closed after the first check. -/
def closesFirst : Nat → Links
  | 0 => Table.empty.insert 1 (.opened 1 .outbound .direct none none)
  | _ + 1 => .empty

theorem seeker_comes_to_rest :
    (∀ check link, seeker.book.leadsThrough link = true →
      (closesFirst check).isOpen link = true → (closesFirst 0).isOpen link = true) ∧
    ∃ last ≤ 6,
      (∀ check < last,
        Refuses (refusesTwice check) (beforeCheck refusesTwice closesFirst seeker check) ∧
          (checkTurn refusesTwice closesFirst seeker check).rechecks = 1) ∧
      ¬ Refuses (refusesTwice last) (beforeCheck refusesTwice closesFirst seeker last) ∧
      (checkTurn refusesTwice closesFirst seeker last).rechecks = 0 := by
  have closing (check : Nat) (link : LinkId) (_ : seeker.book.leadsThrough link = true)
      (isOpen : (closesFirst check).isOpen link = true) :
      (closesFirst 0).isOpen link = true := by
    cases check with
    | zero => exact isOpen
    | succ => cases isOpen
  have six : seeker.book.patience (closesFirst 0).isOpen (refusesTwice 0).now = 6 := by
    decide +kernel
  exact ⟨closing, six ▸ checks_come_to_rest closing⟩

example :
    (List.range 4).map (fun check => (checkTurn refusesTwice closesFirst seeker check).rechecks) =
      [1, 1, 0, 0] := by
  cbv

end PeerOverlay.Manager
