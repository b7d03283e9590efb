import Mathlib.Data.List.Induction
import PeerOverlay.Proofs.Manager.Milestones

/-!
# News of peers

A manager publishes that a peer has joined, or has left, exactly when its peers change.  In
what it publishes in a run every link has at most one peer that joins and one that leaves,
who leaves has joined before, and those who have joined and not left are the peers.
-/

namespace PeerOverlay

/-! ## News in order -/

namespace PeerNews

/-- The link of a peer that has joined. -/
def joinedOn? : PeerNews → Option LinkId
  | .joined peer => some peer.link
  | _ => none

/-- The link of a peer that has left. -/
def leftOn? : PeerNews → Option LinkId
  | .left peer => some peer.link
  | _ => none

/-- The links on which peers have joined, in order. -/
def joinedLinks (news : List PeerNews) : List LinkId :=
  news.filterMap joinedOn?

/-- The links from which peers have left, in order. -/
def leftLinks (news : List PeerNews) : List LinkId :=
  news.filterMap leftOn?

theorem joinedLinks_append (news more : List PeerNews) :
    joinedLinks (news ++ more) = joinedLinks news ++ joinedLinks more :=
  List.filterMap_append

theorem leftLinks_append (news more : List PeerNews) :
    leftLinks (news ++ more) = leftLinks news ++ leftLinks more :=
  List.filterMap_append

/-- Whether who leaves has joined before, and whatever is told of a peer is followed by the
news that something has changed. -/
structure InOrder (news : List PeerNews) : Prop where
  paired : ∀ {place : Nat} {peer : Peer}, news[place]? = some (.left peer) →
    ∃ earlier, earlier < place ∧ news[earlier]? = some (.joined peer)
  followed : ∀ {place : Nat} {report : PeerNews}, news[place]? = some report → report ≠ .changed →
    news[place + 1]? = some .changed

namespace InOrder

variable {news : List PeerNews}

theorem nothing : InOrder [] where
  paired := by
    intro place peer told
    simp at told
  followed := by
    intro place report told
    simp at told

theorem getElem?_tell {report found : PeerNews} {place : Nat}
    (told : (news ++ [report, .changed])[place]? = some found) :
    news[place]? = some found ∨ (place = news.length ∧ found = report) ∨ found = .changed := by
  rcases Nat.lt_or_ge place news.length with early | late
  · rw [List.getElem?_append_left early] at told
    exact .inl told
  · right
    obtain ⟨further, rfl⟩ := Nat.exists_eq_add_of_le late
    rw [List.getElem?_append_right late, Nat.add_sub_cancel_left] at told
    match further with
    | 0 => exact .inl ⟨rfl, (Option.some.inj told).symm⟩
    | 1 => exact .inr (Option.some.inj told).symm
    | _ + 2 => cases told

/-- What is told of a peer comes with its change, and who is told to leave has joined. -/
theorem tell (inOrder : InOrder news) (report : PeerNews)
    (present : ∀ peer, report = .left peer → .joined peer ∈ news) :
    InOrder (news ++ [report, .changed]) where
  paired := by
    intro place peer told
    have joinedBefore : ∃ earlier, earlier < place ∧ news[earlier]? = some (.joined peer) := by
      rcases getElem?_tell told with early | ⟨rfl, isReport⟩ | other
      · exact inOrder.paired early
      · obtain ⟨earlier, inside, joined⟩ := List.getElem_of_mem (present peer isReport.symm)
        exact ⟨earlier, inside, (List.getElem?_eq_getElem inside).trans (congrArg some joined)⟩
      · cases other
    obtain ⟨earlier, before, joined⟩ := joinedBefore
    have inside := (List.getElem?_eq_some_iff.1 joined).1
    exact ⟨earlier, before, (List.getElem?_append_left inside).trans joined⟩
  followed := by
    intro place found told different
    rcases getElem?_tell told with early | ⟨rfl, _⟩ | changed
    · have next := inOrder.followed early different
      have inside := (List.getElem?_eq_some_iff.1 next).1
      exact (List.getElem?_append_left inside).trans next
    · rw [List.getElem?_append_right (Nat.le_add_right _ _), Nat.add_sub_cancel_left]
      rfl
    · exact absurd changed different

/-- The links that have been left are links on which peers had joined. -/
theorem mem_joinedLinks (inOrder : InOrder news) {id : LinkId} (left : id ∈ leftLinks news) :
    id ∈ joinedLinks news := by
  obtain ⟨report, member, isLeft⟩ := List.mem_filterMap.1 left
  cases report with
  | left peer =>
      obtain ⟨place, inside, told⟩ := List.getElem_of_mem member
      have found : news[place]? = some (.left peer) := by
        rw [List.getElem?_eq_getElem inside, told]
      obtain ⟨earlier, _, joined⟩ := inOrder.paired found
      exact List.mem_filterMap.2 ⟨.joined peer, List.mem_of_getElem? joined, isLeft⟩
  | _ => cases isLeft

end InOrder

end PeerNews

namespace Manager

open PeerNews (joinedLinks joinedLinks_append leftLinks leftLinks_append)

/-! ## What is published -/

def Effect.news? : Effect → Option PeerNews
  | .publish news => some news
  | _ => none

def Milestone.news? : Milestone → Option PeerNews
  | .told news => some news
  | _ => none

/-- What is published in a turn, in order. -/
def Turn.news (turn : Turn) : List PeerNews :=
  turn.effects.filterMap Effect.news?

theorem Turn.news_eq (turn : Turn) : turn.news = turn.milestones.filterMap Milestone.news? := by
  unfold news milestones
  rw [List.filterMap_filterMap]
  congr 1
  funext effect
  cases effect <;> rfl

/-- What is published in a run, in order. -/
def published (manager : Manager) : List Step → List PeerNews
  | [] => []
  | step :: rest => (step.turn manager).news ++ published (step.apply manager) rest

theorem published_concat (manager : Manager) (earlier : List Step) (step : Step) :
    published manager (earlier ++ [step]) =
      published manager earlier ++ (step.turn (run manager earlier)).news := by
  induction earlier generalizing manager with
  | nil => exact List.append_nil _
  | cons first rest hypothesis =>
      show (first.turn manager).news ++ published (first.apply manager) (rest ++ [step]) = _
      rw [hypothesis, ← List.append_assoc]
      rfl

theorem announcing_concat (earlier : List Step) (step : Step) :
    announcing (earlier ++ [step]) =
      announcing earlier ++ (step.move.announcement?.map Peer.link).toList :=
  filterMap_concat_eq _ earlier step

/-! ## News and peers -/

/-- How news stand to the peers of a manager that was handed some links, and to which peers
have announced themselves on some links. -/
structure Tells (handed heard : List LinkId) (manager : Manager) (news : List PeerNews) :
    Prop where
  held : ∀ {id}, (manager.slots.get? id).isSome → id ∈ handed
  announced : ∀ {id}, id ∈ joinedLinks news → id ∈ heard
  inOrder : PeerNews.InOrder news
  joinedOnce : (joinedLinks news).Nodup
  leftOnce : (leftLinks news).Nodup
  own : ∀ {id peer}, manager.peerOf? id = some peer → peer.link = id
  told : ∀ {id peer}, manager.peerOf? id = some peer → .joined peer ∈ news
  there : ∀ {id peer}, manager.peerOf? id = some peer → id ∉ leftLinks news
  balance : (joinedLinks news).length = (leftLinks news).length + manager.peerCount

namespace Tells

variable {handed heard handedLater heardLater : List LinkId} {before after : Manager}
  {news : List PeerNews}

theorem new (config : Config) (book : AddressBook) :
    Tells [] [] (Manager.new config book) [] where
  held := by
    intro id held
    cases held
  announced := fun member => member
  inOrder := .nothing
  joinedOnce := List.nodup_nil
  leftOnce := List.nodup_nil
  own := by
    intro id peer live
    simp [peerOf?_new] at live
  told := by
    intro id peer live
    simp [peerOf?_new] at live
  there := by
    intro id peer live
    simp [peerOf?_new] at live
  balance := rfl

theorem kept (tells : Tells handed heard before news) (slots : after.slots = before.slots)
    (handedMore : handed ⊆ handedLater) (heardMore : heard ⊆ heardLater) :
    Tells handedLater heardLater after news where
  held := by
    intro id held
    rw [slots] at held
    exact handedMore (tells.held held)
  announced := fun member => heardMore (tells.announced member)
  inOrder := tells.inOrder
  joinedOnce := tells.joinedOnce
  leftOnce := tells.leftOnce
  own := by
    intro id peer live
    rw [peerOf?_congr slots] at live
    exact tells.own live
  told := by
    intro id peer live
    rw [peerOf?_congr slots] at live
    exact tells.told live
  there := by
    intro id peer live
    rw [peerOf?_congr slots] at live
    exact tells.there live
  balance := by
    rw [peerCount_eq_countRows, slots, ← peerCount_eq_countRows]
    exact tells.balance

/-- A link that is attended to for the first time has no peer. -/
theorem attended (tells : Tells handed heard before news) {id : LinkId} {link : Link}
    (fresh : id ∉ handed) (now : id ∈ handedLater)
    (slots : after.slots = before.slots.insert id (.ofLink link))
    (handedMore : handed ⊆ handedLater) (heardMore : heard ⊆ heardLater) :
    Tells handedLater heardLater after news where
  held := by
    intro tested held
    rw [slots, Table.get?_insert] at held
    split at held
    · next same => exact same ▸ now
    · exact handedMore (tells.held held)
  announced := fun member => heardMore (tells.announced member)
  inOrder := tells.inOrder
  joinedOnce := tells.joinedOnce
  leftOnce := tells.leftOnce
  own := fun live => tells.own (peerOf?_of_ofLink slots live)
  told := fun live => tells.told (peerOf?_of_ofLink slots live)
  there := fun live => tells.there (peerOf?_of_ofLink slots live)
  balance := by
    have inserted := before.slots.countRows_insert (fun _ slot => slot.peer.isSome) id
      (.ofLink link)
    have absent : before.slots.get? id = none := by
      cases found : before.slots.get? id with
      | none => rfl
      | some slot => exact absurd (tells.held (by rw [found]; rfl)) fresh
    rw [absent, ← slots, ← peerCount_eq_countRows, ← peerCount_eq_countRows] at inserted
    have same : after.peerCount = before.peerCount := inserted
    rw [same]
    exact tells.balance

/-- A peer joins on a link on which none had announced itself before. -/
theorem joined (tells : Tells handed heard before news) {peer : Peer} {slot : Slot}
    (fresh : peer.link ∉ heard) (now : peer.link ∈ heardLater)
    (known : before.slots.get? peer.link = some slot)
    (slots : after.slots = before.slots.insert peer.link (slot.accept peer))
    (handedMore : handed ⊆ handedLater) (heardMore : heard ⊆ heardLater) :
    Tells handedLater heardLater after (news ++ [.joined peer, .changed]) := by
  have notJoined : peer.link ∉ joinedLinks news := fun member => fresh (tells.announced member)
  have notLeft : peer.link ∉ leftLinks news :=
    fun member => notJoined (tells.inOrder.mem_joinedLinks member)
  have joins : joinedLinks (news ++ [.joined peer, .changed]) = joinedLinks news ++ [peer.link] :=
    joinedLinks_append news _
  have leaves : leftLinks (news ++ [.joined peer, .changed]) = leftLinks news :=
    (leftLinks_append news _).trans (List.append_nil _)
  have peerless : slot.peer = none := by
    cases earlier : slot.peer with
    | none => rfl
    | some other =>
        have live : before.peerOf? peer.link = some other := by rw [peerOf?, known, ← earlier]; rfl
        have member : other.link ∈ joinedLinks news :=
          List.mem_filterMap.2 ⟨_, tells.told live, rfl⟩
        exact absurd (tells.own live ▸ member) notJoined
  have of_live {id : LinkId} {other : Peer} (live : after.peerOf? id = some other) :
      (id = peer.link ∧ other = peer) ∨ before.peerOf? id = some other := by
    rw [peerOf?_of_insert slots] at live
    split at live
    · next same => exact .inl ⟨same.symm, (Option.some.inj live).symm⟩
    · exact .inr live
  constructor
  · intro id held
    rw [slots, Table.get?_insert] at held
    split at held
    · next same =>
        rw [← same]
        exact handedMore (tells.held (by rw [known]; rfl))
    · exact handedMore (tells.held held)
  · intro id member
    rw [joins, List.mem_append, List.mem_singleton] at member
    rcases member with earlier | rfl
    · exact heardMore (tells.announced earlier)
    · exact now
  · apply tells.inOrder.tell (.joined peer)
    intro other same
    cases same
  · rw [joins]
    refine List.nodup_append.2 ⟨tells.joinedOnce, by simp, ?_⟩
    rintro id member other isNew rfl
    exact notJoined (List.mem_singleton.1 isNew ▸ member)
  · rw [leaves]
    exact tells.leftOnce
  · intro id other live
    rcases of_live live with ⟨rfl, rfl⟩ | earlier
    · rfl
    · exact tells.own earlier
  · intro id other live
    apply List.mem_append.2
    rcases of_live live with ⟨rfl, rfl⟩ | earlier
    · exact .inr (List.mem_cons_self ..)
    · exact .inl (tells.told earlier)
  · intro id other live
    rw [leaves]
    rcases of_live live with ⟨rfl, rfl⟩ | earlier
    · exact notLeft
    · exact tells.there earlier
  · have inserted := before.slots.countRows_insert (fun _ slot => slot.peer.isSome) peer.link
      (slot.accept peer)
    rw [known, ← slots, ← peerCount_eq_countRows, ← peerCount_eq_countRows] at inserted
    have balance := tells.balance
    rw [joins, leaves, List.length_append, List.length_singleton]
    simp only [Table.share_some, peerless, Option.isSome_none, Slot.accept, Option.isSome_some,
      if_true, Bool.false_eq_true, if_false] at inserted
    omega

/-- A link goes that has no peer. -/
theorem missed (tells : Tells handed heard before news) {id : LinkId} {slot : Slot}
    (known : before.slots.get? id = some slot) (peerless : slot.peer = none)
    (slots : after.slots = before.slots.erase id) : Tells handed heard after news where
  held := by
    intro tested held
    rw [slots, Table.get?_erase] at held
    split at held
    · cases held
    · exact tells.held held
  announced := tells.announced
  inOrder := tells.inOrder
  joinedOnce := tells.joinedOnce
  leftOnce := tells.leftOnce
  own := fun live => tells.own (ne_and_peerOf?_of_erase slots live).2
  told := fun live => tells.told (ne_and_peerOf?_of_erase slots live).2
  there := fun live => tells.there (ne_and_peerOf?_of_erase slots live).2
  balance := by
    have erased := before.slots.countRows_erase (fun _ slot => slot.peer.isSome) id
    rw [known, ← slots, ← peerCount_eq_countRows, ← peerCount_eq_countRows] at erased
    simp only [Table.share_some, peerless, Option.isSome_none, Bool.false_eq_true, if_false]
      at erased
    have balance := tells.balance
    omega

/-- A link goes with its peer, who leaves. -/
theorem lost (tells : Tells handed heard before news) {id : LinkId} {slot : Slot} {peer : Peer}
    (known : before.slots.get? id = some slot) (present : slot.peer = some peer)
    (slots : after.slots = before.slots.erase id) :
    Tells handed heard after (news ++ [.left peer, .changed]) := by
  have live : before.peerOf? id = some peer := by
    rw [peerOf?, known]
    exact present
  have joins : joinedLinks (news ++ [.left peer, .changed]) = joinedLinks news :=
    (joinedLinks_append news _).trans (List.append_nil _)
  have leaves : leftLinks (news ++ [.left peer, .changed]) = leftLinks news ++ [id] := by
    rw [← tells.own live]
    exact leftLinks_append news _
  constructor
  · intro tested held
    rw [slots, Table.get?_erase] at held
    split at held
    · cases held
    · exact tells.held held
  · intro tested member
    rw [joins] at member
    exact tells.announced member
  · apply tells.inOrder.tell (.left peer)
    rintro _ ⟨⟩
    exact tells.told live
  · rw [joins]
    exact tells.joinedOnce
  · rw [leaves]
    refine List.nodup_append.2 ⟨tells.leftOnce, by simp, ?_⟩
    rintro tested member other isNew rfl
    exact tells.there live (List.mem_singleton.1 isNew ▸ member)
  · intro tested other stays
    exact tells.own (ne_and_peerOf?_of_erase slots stays).2
  · intro tested other stays
    exact List.mem_append_left _ (tells.told (ne_and_peerOf?_of_erase slots stays).2)
  · intro tested other stays
    obtain ⟨different, earlier⟩ := ne_and_peerOf?_of_erase slots stays
    rw [leaves, List.mem_append, List.mem_singleton]
    rintro (left | rfl)
    · exact tells.there earlier left
    · exact different rfl
  · have erased := before.slots.countRows_erase (fun _ slot => slot.peer.isSome) id
    rw [known, ← slots, ← peerCount_eq_countRows, ← peerCount_eq_countRows] at erased
    simp only [Table.share_some, present, Option.isSome_some, if_true] at erased
    have balance := tells.balance
    rw [joins, leaves, List.length_append, List.length_singleton]
    omega

/-- What a step publishes goes with what it does to the peers. -/
theorem apply (tells : Tells handed heard before news) {step : Step}
    (fresh : ∀ id, step.move.connection? = some id → id ∉ handed)
    (unheard : ∀ id, step.move.announcement?.map Peer.link = some id → id ∉ heard) :
    Tells (handed ++ step.move.connection?.toList)
      (heard ++ (step.move.announcement?.map Peer.link).toList) (step.apply before)
      (news ++ (step.turn before).news) := by
  have handedMore := List.subset_append_left handed step.move.connection?.toList
  have heardMore := List.subset_append_left heard (step.move.announcement?.map Peer.link).toList
  have grown {manager : Manager} {told : List PeerNews} (tells : Tells handed heard manager told) :
      Tells (handed ++ step.move.connection?.toList)
        (heard ++ (step.move.announcement?.map Peer.link).toList) manager told :=
    tells.kept rfl handedMore heardMore
  have untold {handed heard : List LinkId} (quiet : (step.turn before).news = [])
      (tells : Tells handed heard (step.apply before) news) :
      Tells handed heard (step.apply before) (news ++ (step.turn before).news) := by
    rwa [quiet, List.append_nil]
  rw [Turn.news_eq] at *
  cases step.reaches before with
  | nothing same =>
      apply untold (by rw [same.milestones]; rfl)
      exact tells.kept same.slots handedMore heardMore
  | attended id link now known slots traffic milestones =>
      apply untold (by rw [milestones]; rfl)
      have among : id ∈ handed ++ step.move.connection?.toList := by simp [now]
      exact tells.attended (fresh id now) among slots handedMore heardMore
  | joined peer slot announced known slots traffic milestones =>
      rw [milestones]
      have among : peer.link ∈ heard ++ (step.move.announcement?.map Peer.link).toList := by
        rw [announced]
        exact List.mem_append_right heard (List.mem_singleton_self peer.link)
      exact tells.joined (unheard peer.link announced) among known slots handedMore heardMore
  | released id slot ending known slots traffic milestones =>
      cases present : slot.peer with
      | none =>
          apply untold (by rw [milestones, present]; rfl)
          exact grown (tells.missed known present slots)
      | some peer =>
          rw [milestones, present]
          exact grown (tells.lost known present slots)

end Tells

theorem tells_run (config : Config) (book : AddressBook) {steps : List Step}
    (handedOnce : (handedOver steps).Nodup) (announcedOnce : (announcing steps).Nodup) :
    Tells (handedOver steps) (announcing steps) (run (Manager.new config book) steps)
      (published (Manager.new config book) steps) := by
  induction steps using List.reverseRecOn with
  | nil => exact .new config book
  | append_singleton earlier step hypothesis =>
      have initial := List.prefix_append earlier [step]
      have tells := hypothesis (nodup_of_initial handedOnce initial)
        (nodup_of_initial announcedOnce initial)
      rw [handedOver_concat, announcing_concat, published_concat, run_append]
      apply tells.apply
      · intro id now
        exact not_mem_of_nodup_concat handedOnce now
      · intro id now
        exact not_mem_of_nodup_concat announcedOnce now

/-- In every run in which no link is handed over twice and no link announces two peers, each
link has at most one peer that joins and one that leaves, who leaves has joined before,
whatever is told of a peer is followed by the news of a change, and at every point as many
have joined and not left as there are peers. -/
theorem news_pair_up (config : Config) (book : AddressBook) (steps : List Step)
    (handedOnce : (handedOver steps).Nodup) (announcedOnce : (announcing steps).Nodup) :
    (joinedLinks (published (Manager.new config book) steps)).Nodup ∧
      (leftLinks (published (Manager.new config book) steps)).Nodup ∧
      (∀ (place : Nat) peer,
        (published (Manager.new config book) steps)[place]? = some (.left peer) →
        ∃ earlier, earlier < place ∧
          (published (Manager.new config book) steps)[earlier]? = some (.joined peer)) ∧
      (∀ (place : Nat) report,
        (published (Manager.new config book) steps)[place]? = some report → report ≠ .changed →
        (published (Manager.new config book) steps)[place + 1]? = some .changed) ∧
      ∀ earlier, earlier <+: steps →
        (joinedLinks (published (Manager.new config book) earlier)).length =
          (leftLinks (published (Manager.new config book) earlier)).length +
            (run (Manager.new config book) earlier).peerCount := by
  have tells := tells_run config book handedOnce announcedOnce
  refine ⟨tells.joinedOnce, tells.leftOnce, fun _ _ => tells.inOrder.paired,
    fun _ _ => tells.inOrder.followed, ?_⟩
  intro earlier initial
  have before := tells_run config book (nodup_of_initial handedOnce initial)
    (nodup_of_initial announcedOnce initial)
  exact before.balance

/-- A host is turned away when it comes a second time.  Both its links end, one of them is
reported twice, and so does a link that nobody knows; then the host comes a third time. -/
def cameThreeTimes : List Step :=
  let link (id : LinkId) : Link := .opened id .inbound .direct (some (.ip "2.2.2.2")) none
  let links : Links := ((Table.empty.insert 1 (link 1)).insert 2 (link 2)).insert 3 (link 3)
  let peer (link : LinkId) : Peer := {
    link := link
    address := hostAddress "2.2.2.2"
    version := 2
    startHeight := 0
    totalWork := 0
  }
  [.plain links (.event (.connection 1)),
    .plain links (.event (.handshake (peer 1))),
    .plain links (.event (.connection 2)),
    .plain links (.event (.handshake (peer 2))),
    .plain links (.event (.closed 2 false)),
    .plain links (.event (.closed 1 true)),
    .plain links (.event (.closed 1 true)),
    .plain links (.event (.closed 7 true)),
    .plain links (.event (.connection 3)),
    .plain links (.event (.handshake (peer 3)))]

theorem news_pair_up_cameThreeTimes :
    ((handedOver cameThreeTimes).Nodup ∧ (announcing cameThreeTimes).Nodup) ∧
      joinedLinks (published (atHost "1.1.1.1") cameThreeTimes) = [1, 3] ∧
      leftLinks (published (atHost "1.1.1.1") cameThreeTimes) = [1] ∧
      (published (atHost "1.1.1.1") cameThreeTimes)[3]? = some .changed ∧
      (run (atHost "1.1.1.1") cameThreeTimes).peerCount = 1 := by
  have handedOnce : (handedOver cameThreeTimes).Nodup := by decide
  have announcedOnce : (announcing cameThreeTimes).Nodup := by decide
  have joined : joinedLinks (published (atHost "1.1.1.1") cameThreeTimes) = [1, 3] := by decide
  have left : leftLinks (published (atHost "1.1.1.1") cameThreeTimes) = [1] := by decide
  obtain ⟨_, _, _, followed, balance⟩ := news_pair_up (.full (hostAddress "1.1.1.1") "") .empty
    cameThreeTimes handedOnce announcedOnce
  have counted := balance cameThreeTimes (List.prefix_refl _)
  have third : ((published (atHost "1.1.1.1") cameThreeTimes)[2]?.map fun report =>
      report.leftOn?) = some (some 1) := by decide
  obtain ⟨report, found, isLeft⟩ := Option.map_eq_some_iff.1 third
  refine ⟨⟨handedOnce, announcedOnce⟩, joined, left, followed 2 report found ?_, ?_⟩
  · rintro rfl
    cases isLeft
  · have lengths : (joinedLinks (published (atHost "1.1.1.1") cameThreeTimes)).length =
        (leftLinks (published (atHost "1.1.1.1") cameThreeTimes)).length +
          (run (atHost "1.1.1.1") cameThreeTimes).peerCount := counted
    rw [joined, left] at lengths
    exact (Nat.add_left_cancel lengths).symm

end Manager

end PeerOverlay
