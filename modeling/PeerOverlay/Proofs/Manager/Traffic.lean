import Mathlib.Data.List.Induction
import PeerOverlay.Proofs.Manager.Milestones
import PeerOverlay.Proofs.Manager.Transports

/-!
# Traffic

The totals of a manager count the bytes of every link that was ever taken in.  While a link
is held its bytes are read off the link, and when it is released they are put with those of
the links that are gone.  So nothing but a link that is taken in changes the totals in a
step, and they never go down.
-/

namespace PeerOverlay

/-- A count of bytes that is kept for every link. -/
inductive Counter where
  | sent
  | received
  deriving DecidableEq, Repr

def Link.count (link : Link) : Counter → UInt64
  | .sent => link.sent
  | .received => link.received

def Traffic.count (traffic : Traffic) : Counter → UInt64
  | .sent => traffic.sent
  | .received => traffic.received

theorem Traffic.count_add (first second : Traffic) (counter : Counter) :
    (first + second).count counter = first.count counter + second.count counter := by
  cases counter <;> rfl

/-- The bytes that a link has carried, none if it is not known. -/
def Links.bytes (links : Links) (counter : Counter) (id : LinkId) : Nat :=
  ((links.traffic id).count counter).toNat

theorem Links.bytes_eq (links : Links) (counter : Counter) (id : LinkId) :
    links.bytes counter id =
      (((links.get? id).map fun link : Link => link.count counter).getD 0).toNat := by
  unfold bytes traffic
  cases links.get? id <;> cases counter <;> rfl

namespace Manager

/-! ## Totals -/

/-- All bytes that were sent, or received, over links that are gone and links that are not. -/
def totalBytes (manager : Manager) (links : Links) : Counter → UInt64
  | .sent => manager.totalSent links
  | .received => manager.totalReceived links

/-- The bytes of the links that are held. -/
def heldBytes (manager : Manager) (links : Links) (counter : Counter) : Nat :=
  manager.slots.total fun id _ => links.bytes counter id

theorem totalBytes_eq_foldl (manager : Manager) (links : Links) (counter : Counter) :
    manager.totalBytes links counter =
      (manager.ownLinks links).foldl (fun total link => total + link.count counter)
        (manager.pastTraffic.count counter) := by
  cases counter <;> rfl

/-- The bytes of links are added up one by one, and the sum may wrap around. -/
theorem toNat_foldl_count {slots : List (LinkId × Slot)} (links : Links) (counter : Counter)
    (past : UInt64) :
    (((slots.map Prod.fst).filterMap links.get?).foldl
        (fun total link => total + link.count counter) past).toNat =
      (past.toNat + Table.addRows (fun id _ => links.bytes counter id) slots) % UInt64.size := by
  induction slots generalizing past with
  | nil => exact (Nat.mod_eq_of_lt past.toNat_lt).symm
  | cons row rest hypothesis =>
      obtain ⟨id, slot⟩ := row
      rw [List.map_cons, Table.addRows_cons, Links.bytes_eq]
      cases found : links.get? id with
      | none =>
          rw [List.filterMap_cons_none found, hypothesis]
          simp
      | some link =>
          rw [List.filterMap_cons_some found, List.foldl_cons, hypothesis, UInt64.toNat_add]
          simp only [Option.map_some, Option.getD_some, UInt64.size]
          omega

theorem toNat_totalBytes (manager : Manager) (links : Links) (counter : Counter) :
    (manager.totalBytes links counter).toNat =
      ((manager.pastTraffic.count counter).toNat + manager.heldBytes links counter) % UInt64.size := by
  rw [totalBytes_eq_foldl]
  exact toNat_foldl_count links counter _

theorem Step.bytes_turn (step : Step) (manager : Manager) (counter : Counter) (id : LinkId) :
    (step.turn manager).links.bytes counter id = step.links.bytes counter id := by
  have same : ((step.turn manager).links.get? id).map (fun link : Link => link.count counter) =
      (step.links.get? id).map fun link : Link => link.count counter :=
    step.map_turn (fun _ => by cases counter <;> rfl) manager id
  rw [Links.bytes_eq, Links.bytes_eq, same]

/-! ## Accounts -/

/-- All links that were ever attended to: the traffic of those that are gone, as it was when
they were released, and nothing yet of those that are held. -/
abbrev Accounts := Table LinkId (Option Traffic)

namespace Accounts

/-- Enter a milestone that is reached with the given links. -/
def enter (links : Links) (accounts : Accounts) : Milestone → Accounts
  | .attended id => accounts.insert id none
  | .released id => accounts.modify id fun _ => some (links.traffic id)
  | .told _ => accounts

/-- The bytes of all links, live for those that are held. -/
def sum (accounts : Accounts) (links : Links) (counter : Counter) : Nat :=
  accounts.total fun id gone =>
    gone.elim (links.bytes counter id) fun traffic => (traffic.count counter).toNat

/-- The bytes of the links that are gone. -/
def gone (accounts : Accounts) (counter : Counter) : Nat :=
  accounts.total fun _ gone => gone.elim 0 fun traffic => (traffic.count counter).toNat

/-- What a measure gives for the links that are held. -/
def live (accounts : Accounts) (measure : LinkId → Nat) : Nat :=
  accounts.total fun id gone => gone.elim (measure id) fun _ => 0

theorem sum_eq (accounts : Accounts) (links : Links) (counter : Counter) :
    accounts.sum links counter = accounts.gone counter + accounts.live (links.bytes counter) := by
  unfold sum gone live
  rw [← Table.total_add]
  congr 1
  funext id gone
  cases gone <;> simp

theorem sum_congr {accounts : Accounts} {links later : Links} {counter : Counter}
    (same : ∀ id, later.bytes counter id = links.bytes counter id) :
    accounts.sum later counter = accounts.sum links counter := by
  unfold sum
  congr 1
  funext id gone
  cases gone with
  | none => exact same id
  | some traffic => rfl

theorem sum_mono (accounts : Accounts) {links later : Links} {counter : Counter}
    (more : ∀ id, links.bytes counter id ≤ later.bytes counter id) :
    accounts.sum links counter ≤ accounts.sum later counter := by
  apply Table.total_le_total
  intro id gone
  cases gone with
  | none => exact more id
  | some traffic => exact Nat.le_refl _

theorem foldl_enter_told (links : Links) (accounts : Accounts) (news : List PeerNews) :
    (news.map Milestone.told).foldl (enter links) accounts = accounts := by
  induction news with
  | nil => rfl
  | cons report rest hypothesis => exact hypothesis

end Accounts

def accountsFrom (manager : Manager) (accounts : Accounts) : List Step → Accounts
  | [] => accounts
  | step :: rest =>
      accountsFrom (step.apply manager)
        ((step.turn manager).milestones.foldl (Accounts.enter step.links) accounts) rest

/-- The accounts of a run. -/
def accountsAfter (manager : Manager) (steps : List Step) : Accounts :=
  accountsFrom manager .empty steps

theorem accountsAfter_concat (manager : Manager) (earlier : List Step) (step : Step) :
    accountsAfter manager (earlier ++ [step]) =
      (step.turn (run manager earlier)).milestones.foldl (Accounts.enter step.links)
        (accountsAfter manager earlier) := by
  unfold accountsAfter
  generalize (Table.empty : Accounts) = accounts
  induction earlier generalizing manager accounts with
  | nil => rfl
  | cons first rest hypothesis => exact hypothesis (first.apply manager) _

/-! ## The totals and the accounts -/

/-- Whether accounts are those of a manager that was handed some links. -/
structure Balanced (handed : List LinkId) (accounts : Accounts) (manager : Manager) : Prop where
  among : ∀ {id}, (accounts.get? id).isSome → id ∈ handed
  held : ∀ id, accounts.get? id = some none ↔ (manager.slots.get? id).isSome
  live : ∀ measure, accounts.live measure = manager.slots.total fun id _ => measure id
  past : ∀ counter, (manager.pastTraffic.count counter).toNat = accounts.gone counter % UInt64.size

namespace Balanced

variable {handed handedLater : List LinkId} {accounts : Accounts} {before after : Manager}

theorem new (config : Config) (book : AddressBook) :
    Balanced [] .empty (Manager.new config book) where
  among := by
    intro id entered
    cases entered
  held := by
    intro id
    constructor <;> intro found <;> cases found
  live := fun _ => rfl
  past := by
    intro counter
    cases counter <;> rfl

theorem get?_eq_none (balanced : Balanced handed accounts before) {id : LinkId}
    (fresh : id ∉ handed) : accounts.get? id = none := by
  cases found : accounts.get? id with
  | none => rfl
  | some gone => exact absurd (balanced.among (by rw [found]; rfl)) fresh

theorem get?_of_known (balanced : Balanced handed accounts before) {id : LinkId} {slot : Slot}
    (known : before.slots.get? id = some slot) : accounts.get? id = some none :=
  (balanced.held id).2 (by rw [known]; rfl)

theorem kept (balanced : Balanced handed accounts before)
    (seats : ∀ id, (after.slots.get? id).isSome ↔ (before.slots.get? id).isSome)
    (totals : ∀ measure : LinkId → Nat,
      (after.slots.total fun id _ => measure id) = before.slots.total fun id _ => measure id)
    (traffic : after.pastTraffic = before.pastTraffic) (more : handed ⊆ handedLater) :
    Balanced handedLater accounts after where
  among := fun entered => more (balanced.among entered)
  held := fun id => (balanced.held id).trans (seats id).symm
  live := fun measure => (balanced.live measure).trans (totals measure).symm
  past := by
    intro counter
    rw [traffic]
    exact balanced.past counter

/-- The slot of a link gets its peer. -/
theorem joined (balanced : Balanced handed accounts before) {id : LinkId} {slot later : Slot}
    (known : before.slots.get? id = some slot) (slots : after.slots = before.slots.insert id later)
    (traffic : after.pastTraffic = before.pastTraffic) (more : handed ⊆ handedLater) :
    Balanced handedLater accounts after := by
  refine balanced.kept ?_ ?_ traffic more
  · intro tested
    rw [slots, Table.get?_insert]
    split
    · next same => simp [← same, known]
    · exact Iff.rfl
  · intro measure
    have inserted := before.slots.total_insert (fun id _ => measure id) id later
    rw [known, ← slots] at inserted
    exact Nat.add_right_cancel inserted

theorem attended (balanced : Balanced handed accounts before) {id : LinkId} {slot : Slot}
    (fresh : id ∉ handed) (now : id ∈ handedLater)
    (slots : after.slots = before.slots.insert id slot)
    (traffic : after.pastTraffic = before.pastTraffic) (more : handed ⊆ handedLater) :
    Balanced handedLater (accounts.insert id none) after := by
  have new := balanced.get?_eq_none fresh
  have absent : before.slots.get? id = none := by
    cases found : before.slots.get? id with
    | none => rfl
    | some slot =>
        have held := (balanced.held id).2 (by rw [found]; rfl)
        exact absurd (new.symm.trans held) (Option.some_ne_none _).symm
  constructor
  · intro tested entered
    rw [Table.get?_insert] at entered
    split at entered
    · next same => exact same ▸ now
    · exact more (balanced.among entered)
  · intro tested
    rw [slots, Table.get?_insert, Table.get?_insert]
    split
    · simp
    · exact balanced.held tested
  · intro measure
    have entered := accounts.total_insert
      (fun id gone => gone.elim (measure id) fun _ => 0) id none
    have inserted := before.slots.total_insert (fun id _ => measure id) id slot
    have live := balanced.live measure
    rw [new] at entered
    rw [absent, ← slots] at inserted
    simp only [Accounts.live, Table.portion_none, Option.elim_none] at *
    omega
  · intro counter
    have entered := accounts.total_insert
      (fun _ gone => gone.elim 0 fun traffic => (traffic.count counter).toNat) id none
    rw [new] at entered
    rw [traffic, balanced.past counter]
    exact congrArg (· % UInt64.size) entered.symm

/-- With a link its bytes go to those of the links that are gone. -/
theorem released (balanced : Balanced handed accounts before) {id : LinkId} {slot : Slot}
    {gone : Traffic} (known : before.slots.get? id = some slot)
    (slots : after.slots = before.slots.erase id)
    (traffic : after.pastTraffic = before.pastTraffic + gone) (more : handed ⊆ handedLater) :
    Balanced handedLater (accounts.modify id fun _ => some gone) after := by
  have held := balanced.get?_of_known known
  constructor
  · intro tested entered
    rw [Table.get?_modify, Option.isSome_map] at entered
    exact more (balanced.among entered)
  · intro tested
    rw [slots, Table.get?_erase, Table.get?_modify]
    split
    · next same => simp [← same]
    · next different =>
        simp only [if_neg (Ne.symm different), Option.map_id']
        exact balanced.held tested
  · intro measure
    have entered := accounts.total_modify
      (fun id gone => gone.elim (measure id) fun _ => 0) id fun _ => some gone
    have erased := before.slots.total_erase (fun id _ => measure id) id
    have live := balanced.live measure
    rw [held] at entered
    rw [known, ← slots] at erased
    simp only [Accounts.live, Option.map_some, Table.portion_some, Option.elim_none,
      Option.elim_some] at *
    omega
  · intro counter
    have entered := accounts.total_modify
      (fun _ gone => gone.elim 0 fun traffic => (traffic.count counter).toNat) id
      fun _ => some gone
    have past := balanced.past counter
    rw [held] at entered
    rw [traffic, Traffic.count_add, UInt64.toNat_add, past]
    simp only [Accounts.gone, Option.map_some, Table.portion_some, Option.elim_none,
      Option.elim_some, UInt64.size] at *
    omega

theorem apply (balanced : Balanced handed accounts before) {step : Step}
    (fresh : ∀ id, step.move.connection? = some id → id ∉ handed) :
    Balanced (handed ++ step.move.connection?.toList)
      ((step.turn before).milestones.foldl (Accounts.enter step.links) accounts)
      (step.apply before) := by
  have more := List.subset_append_left handed step.move.connection?.toList
  cases step.reaches before with
  | nothing same =>
      have slots : (step.apply before).slots = before.slots := same.slots
      have traffic : (step.apply before).pastTraffic = before.pastTraffic := same.traffic
      rw [same.milestones]
      exact balanced.kept (fun id => by rw [slots]) (fun measure => by rw [slots]) traffic more
  | attended id link now known slots traffic milestones =>
      rw [milestones]
      exact balanced.attended (fresh id now) (by simp [now]) slots traffic more
  | joined peer slot announced known slots traffic milestones =>
      rw [milestones]
      exact balanced.joined known slots traffic more
  | released id slot ending known slots traffic milestones =>
      rw [milestones, List.foldl_cons, Accounts.foldl_enter_told]
      exact balanced.released known slots traffic more

/-- The total is the sum of the accounts, which may wrap around. -/
theorem toNat_totalBytes (balanced : Balanced handed accounts before) (links : Links)
    (counter : Counter) :
    (before.totalBytes links counter).toNat = accounts.sum links counter % UInt64.size := by
  have live := balanced.live (links.bytes counter)
  rw [before.toNat_totalBytes, balanced.past counter, accounts.sum_eq, live, heldBytes,
    Nat.mod_add_mod]

/-- A step moves bytes in the accounts, and brings those of a link that is attended to. -/
theorem sum_apply (balanced : Balanced handed accounts before) {step : Step}
    (fresh : ∀ id, step.move.connection? = some id → id ∉ handed) (counter : Counter) :
    let entered := (step.turn before).milestones.foldl (Accounts.enter step.links) accounts
    accounts.sum step.links counter ≤ entered.sum (step.turn before).links counter ∧
      ((∀ id, .attended id ∉ (step.turn before).milestones) →
        entered.sum (step.turn before).links counter = accounts.sum step.links counter) := by
  intro entered
  rw [Accounts.sum_congr fun id => step.bytes_turn before counter id]
  cases step.reaches before with
  | nothing same =>
      have kept : entered = accounts := congrArg (List.foldl _ accounts) same.milestones
      rw [kept]
      exact ⟨Nat.le_refl _, fun _ => rfl⟩
  | attended id link now known slots traffic milestones =>
      have opened : entered = accounts.insert id none := congrArg (List.foldl _ accounts) milestones
      have inserted := accounts.total_insert
        (fun id gone => gone.elim (step.links.bytes counter id) fun traffic =>
          (traffic.count counter).toNat) id none
      rw [balanced.get?_eq_none (fresh id now)] at inserted
      rw [opened, milestones]
      refine ⟨?_, fun none => absurd (List.mem_singleton_self _) (none id)⟩
      exact Nat.le_trans (Nat.le_add_right _ _) (Nat.le_of_eq inserted.symm)
  | joined peer slot announced known slots traffic milestones =>
      have kept : entered = accounts := congrArg (List.foldl _ accounts) milestones
      rw [kept]
      exact ⟨Nat.le_refl _, fun _ => rfl⟩
  | released id slot ending known slots traffic milestones =>
      have settled : entered = accounts.modify id fun _ => some (step.links.traffic id) :=
        (congrArg (List.foldl _ accounts) milestones).trans
          (Accounts.foldl_enter_told step.links _ _)
      have moved := accounts.total_modify
        (fun id gone => gone.elim (step.links.bytes counter id) fun traffic =>
          (traffic.count counter).toNat) id fun _ => some (step.links.traffic id)
      rw [balanced.get?_of_known known] at moved
      have same : entered.sum step.links counter = accounts.sum step.links counter := by
        rw [settled]
        exact Nat.add_right_cancel moved
      exact ⟨Nat.le_of_eq same.symm, fun _ => same⟩

end Balanced

/-! ## Runs -/

section Run

variable {steps earlier later : List Step}

theorem balanced_run (config : Config) (book : AddressBook)
    (handedOnce : (handedOver steps).Nodup) :
    Balanced (handedOver steps) (accountsAfter (Manager.new config book) steps)
      (run (Manager.new config book) steps) := by
  induction steps using List.reverseRecOn with
  | nil => exact .new config book
  | append_singleton earlier step hypothesis =>
      have balanced := hypothesis (nodup_of_initial handedOnce (List.prefix_append earlier [step]))
      rw [handedOver_concat, accountsAfter_concat, run_append]
      apply balanced.apply
      intro id now
      exact not_mem_of_nodup_concat handedOnce now

/-- Whether all links have carried at least as much as at the end of a turn. -/
def Step.CarriesOn (turn : Turn) (step : Step) : Prop :=
  ∀ counter id, turn.links.bytes counter id ≤ step.links.bytes counter id

/-- The sum of the accounts at the end of the last of some steps. -/
def sumAfter (turn : Turn) (steps : List Step) (counter : Counter) : Nat :=
  (accountsAfter turn.manager steps).sum (turnAfter turn steps).links counter

theorem sumAfter_le {config : Config} {book : AddressBook} {links : Links}
    (handedOnce : (handedOver steps).Nodup)
    (along : Along Step.CarriesOn (.start (Manager.new config book) links) steps)
    (counter : Counter) (initial : earlier <+: later) (further : later <+: steps) :
    sumAfter (.start (Manager.new config book) links) earlier counter ≤
      sumAfter (.start (Manager.new config book) links) later counter := by
  induction later using List.reverseRecOn with
  | nil =>
      cases List.prefix_nil.1 initial
      exact Nat.le_refl _
  | append_singleton before step hypothesis =>
      rcases List.prefix_concat_iff.1 initial with rfl | within
      · exact Nat.le_refl _
      · have initially := prefix_of_initial further
        have balanced := balanced_run config book (nodup_of_initial handedOnce initially)
        have moved := balanced.sum_apply
          (fun id now => not_mem_of_nodup_concat (nodup_of_initial handedOnce further) now) counter
        have carried := (accountsAfter (Manager.new config book) before).sum_mono
          (along.holds further counter)
        refine Nat.le_trans (hypothesis within initially) (Nat.le_trans carried ?_)
        unfold sumAfter
        rw [accountsAfter_concat, turnAfter_concat, manager_turnAfter]
        exact moved.1

/-- In every run in which no link is handed over twice, the accounts hold the links that were
attended to and are not gone, and the totals are their sums, unless these are too large for a
counter.  A step that attends to no link leaves both totals as they are, and if the links
never lose count between the steps, no total is ever smaller than before. -/
theorem traffic_conserved (config : Config) (book : AddressBook) (steps : List Step)
    (handedOnce : (handedOver steps).Nodup) :
    (∀ id, (accountsAfter (Manager.new config book) steps).get? id = some none ↔
        ((run (Manager.new config book) steps).slots.get? id).isSome) ∧
      (∀ links counter,
        (accountsAfter (Manager.new config book) steps).sum links counter < UInt64.size →
        ((run (Manager.new config book) steps).totalBytes links counter).toNat =
          (accountsAfter (Manager.new config book) steps).sum links counter) ∧
      (∀ earlier step, earlier ++ [step] <+: steps →
        (∀ id, .attended id ∉ (step.turn (run (Manager.new config book) earlier)).milestones) →
        ∀ counter,
          (step.apply (run (Manager.new config book) earlier)).totalBytes
              (step.turn (run (Manager.new config book) earlier)).links counter =
            (run (Manager.new config book) earlier).totalBytes step.links counter) ∧
      ∀ links, Along Step.CarriesOn (.start (Manager.new config book) links) steps →
        ∀ earlier later, earlier <+: later → later <+: steps →
        ∀ counter, sumAfter (.start (Manager.new config book) links) later counter < UInt64.size →
          (run (Manager.new config book) earlier).totalBytes
              (turnAfter (.start (Manager.new config book) links) earlier).links counter ≤
            (run (Manager.new config book) later).totalBytes
              (turnAfter (.start (Manager.new config book) links) later).links counter := by
  have balanced {earlier : List Step} (initial : earlier <+: steps) :=
    balanced_run config book (nodup_of_initial handedOnce initial)
  refine ⟨(balanced (List.prefix_refl steps)).held, ?_, ?_, ?_⟩
  · intro links counter small
    rw [(balanced (List.prefix_refl steps)).toNat_totalBytes, Nat.mod_eq_of_lt small]
  · intro earlier step initial none counter
    have moved := (balanced (prefix_of_initial initial)).sum_apply
      (fun id now => not_mem_of_nodup_concat (nodup_of_initial handedOnce initial) now) counter
    have after := balanced initial
    rw [accountsAfter_concat, run_append] at after
    apply UInt64.toNat_inj.1
    rw [(balanced (prefix_of_initial initial)).toNat_totalBytes, ← moved.2 none]
    exact after.toNat_totalBytes _ counter
  · intro links along earlier later initial further counter small
    have more := sumAfter_le handedOnce along counter initial further
    have total {earlier : List Step} (initial : earlier <+: steps) :
        ((run (Manager.new config book) earlier).totalBytes
            (turnAfter (.start (Manager.new config book) links) earlier).links counter).toNat =
          sumAfter (.start (Manager.new config book) links) earlier counter % UInt64.size :=
      (balanced initial).toNat_totalBytes _ counter
    apply UInt64.le_iff_toNat_le.2
    rw [total (initial.trans further), total further,
      Nat.mod_eq_of_lt (Nat.lt_of_le_of_lt more small), Nat.mod_eq_of_lt small]
    exact more

end Run

/-- Two links of two hosts, with the bytes that were sent over them. -/
def busyLinks (first second : UInt64) : Links :=
  (Table.empty.insert 1
      ((Link.opened 1 .inbound .direct (some (.ip "2.2.2.2")) none).report first 1)).insert 2
    ((Link.opened 2 .inbound .direct (some (.ip "3.3.3.3")) none).report second 2)

/-- The first link ends, which is told twice, while the second one goes on. -/
def busy : List Step :=
  [.plain (busyLinks 5 0) (.event (.connection 1)),
    .plain (busyLinks 70 0) (.event (.connection 2)),
    .plain (busyLinks 70 8) (.event (.closed 1 true)),
    .plain (busyLinks 90 9) (.event (.closed 1 true)),
    .plain (busyLinks 90 40) (.event .checkPeerCount)]

theorem bytes_busyLinks_le {first second firstLater secondLater : UInt64}
    (more : first ≤ firstLater) (moreToo : second ≤ secondLater) (counter : Counter) (id : LinkId) :
    (busyLinks first second).bytes counter id ≤
      (busyLinks firstLater secondLater).bytes counter id := by
  simp only [Links.bytes_eq, busyLinks, Table.get?_insert, Table.get?_empty]
  split
  · cases counter
    · simpa [Link.count, Link.report, Link.opened, Link.countSent, Link.countReceived]
        using UInt64.le_iff_toNat_le.1 moreToo
    · exact Nat.le_refl _
  · split
    · cases counter
      · simpa [Link.count, Link.report, Link.opened, Link.countSent, Link.countReceived]
          using UInt64.le_iff_toNat_le.1 more
      · exact Nat.le_refl _
    · exact Nat.le_refl _

/-- The bytes that the first link carries after its end count no more. -/
theorem traffic_conserved_busy :
    (handedOver busy).Nodup ∧
      (accountsAfter (atHost "1.1.1.1") busy).get? 1 = some (some ⟨70, 1⟩) ∧
      (accountsAfter (atHost "1.1.1.1") busy).get? 2 = some none ∧
      ((run (atHost "1.1.1.1") busy).totalBytes (busyLinks 90 40) .sent).toNat = 110 ∧
      Along Step.CarriesOn (.start (atHost "1.1.1.1") .empty) busy ∧
      (run (atHost "1.1.1.1") (busy.take 2)).totalBytes (busyLinks 70 0) .sent ≤
        (run (atHost "1.1.1.1") busy).totalBytes (busyLinks 90 40) .sent := by
  have handedOnce : (handedOver busy).Nodup := by decide
  obtain ⟨held, sums, _, grows⟩ := traffic_conserved (.full (hostAddress "1.1.1.1") "") .empty busy
    handedOnce
  have sum : (accountsAfter (atHost "1.1.1.1") busy).sum (busyLinks 90 40) .sent = 110 := by decide
  have along : Along Step.CarriesOn (.start (atHost "1.1.1.1") .empty) busy := by
    refine ⟨?_, ?_, ?_, ?_, ?_, trivial⟩ <;> intro counter id
    · have nothing : Links.bytes .empty counter id = 0 := by cases counter <;> rfl
      exact Nat.le_trans (Nat.le_of_eq nothing) (Nat.zero_le _)
    · rw [Step.bytes_turn]
      exact bytes_busyLinks_le (by decide) (by decide) counter id
    · rw [Step.bytes_turn]
      exact bytes_busyLinks_le (by decide) (by decide) counter id
    · rw [Step.bytes_turn]
      exact bytes_busyLinks_le (by decide) (by decide) counter id
    · rw [Step.bytes_turn]
      exact bytes_busyLinks_le (by decide) (by decide) counter id
  have small : (accountsAfter (atHost "1.1.1.1") busy).sum (busyLinks 90 40) .sent < UInt64.size := by
    rw [sum]
    decide
  have total := sums (busyLinks 90 40) .sent small
  have grown := grows .empty along (busy.take 2) busy (List.take_prefix 2 busy)
    (List.prefix_refl busy) .sent small
  exact ⟨handedOnce, by decide, (held 2).2 (by decide), total.trans sum, along, grown⟩

end Manager

end PeerOverlay
