import Mathlib.Logic.Function.Basic
import PeerOverlay.Network.Control
import PeerOverlay.Proofs.Manager.Containment
import PeerOverlay.Proofs.Network.PumpMoves

/-!
# Two links that are joined

What is said on one of two joined links is heard on the other one in the same order, up to a
point, and nothing is left out or heard twice.  Both ends count the same bytes.  This holds
however both nodes use their links and close them, and in whichever order the pumps run.
-/

namespace PeerOverlay.Network

/-! ## What is said and heard -/

/-- A network, and what was accepted for sending and what was read on each link, in order. -/
structure Recorded where
  network : Network
  said : LinkId → List Message
  heard : LinkId → List Message

namespace Recorded

/-- A message is to be sent on a link.  It is said if it is accepted. -/
def send (recorded : Recorded) (id : LinkId) (message : Message) : Recorded where
  network := (recorded.network.send id message).2
  said :=
    if (recorded.network.send id message).1 then
      Function.update recorded.said id (recorded.said id ++ [message])
    else
      recorded.said
  heard := recorded.heard

/-- The first message that was delivered on a link is read. -/
def read (recorded : Recorded) (id : LinkId) (message : Message) (others : List Message) :
    Recorded where
  network := recorded.network.changeLink id fun link => { link with inbound := others }
  said := recorded.said
  heard := Function.update recorded.heard id (recorded.heard id ++ [message])

/-- What may happen to a network in which two links are joined. -/
inductive Step (first second : LinkId) (before : Recorded) : Recorded → Prop where
  | sent (id : LinkId) (own : id = first ∨ id = second) (message : Message) :
      Step first second before (before.send id message)
  | heard (id : LinkId) (own : id = first ∨ id = second) (link : Link) (message : Message)
      (others : List Message) (known : before.network.links.get? id = some link)
      (waits : link.inbound = message :: others) :
      Step first second before (before.read id message others)
  | closed (id : LinkId) (own : id = first ∨ id = second) (reason : String) :
      Step first second before
        { before with network := before.network.changeLink id fun link => link.close reason }
  /-- Nobody reads what is delivered on a link any more. -/
  | abandoned (id : LinkId) (own : id = first ∨ id = second) :
      Step first second before
        { before with network := before.network.changeLink id Link.abandon }
  | identified (id : LinkId) (own : id = first ∨ id = second) (address : PeerAddress) :
      Step first second before
        { before with network := before.network.changeLink id fun link => link.learnPeer address }
  | pumped (id : LinkId) (own : id = first ∨ id = second) (pump : Pump) (source target : Link)
      (move : Pump.Move) (runs : before.network.pumps.get? id = some pump)
      (starts : before.network.links.get? id = some source)
      (ends : before.network.links.get? pump.target = some target)
      (may : pump.May source target move) :
      Step first second before
        { before with network := before.network.afterMove id pump source target move }
  /-- Something happens that leaves both links and both pumps alone. -/
  | elsewhere (after : Network)
      (links : ∀ id, id = first ∨ id = second →
        after.links.get? id = before.network.links.get? id)
      (pumps : ∀ id, id = first ∨ id = second →
        after.pumps.get? id = before.network.pumps.get? id) :
      Step first second before { before with network := after }

theorem Step.symm {first second : LinkId} {before after : Recorded}
    (step : Step first second before after) : Step second first before after := by
  cases step with
  | sent id own message => exact .sent id own.symm message
  | heard id own link message others known waits =>
      exact .heard id own.symm link message others known waits
  | closed id own reason => exact .closed id own.symm reason
  | abandoned id own => exact .abandoned id own.symm
  | identified id own address => exact .identified id own.symm address
  | pumped id own pump source target move runs starts ends may =>
      exact .pumped id own.symm pump source target move runs starts ends may
  | elsewhere after links pumps =>
      exact .elsewhere after (fun _ own => links _ own.symm) fun _ own => pumps _ own.symm

/-- Whether a pump has made a move. -/
def Moved (before after : Recorded) : Prop :=
  ∃ id pump source target move, before.network.pumps.get? id = some pump ∧
    pump.May source target move ∧
      after = { before with network := before.network.afterMove id pump source target move }

/-- The bytes that were counted on a link, sent and received. -/
def counts (recorded : Recorded) (id : LinkId) : Option (UInt64 × UInt64) :=
  (recorded.network.links.get? id).map fun link => (link.sent, link.received)

end Recorded

/-! ## The way from one link to the other -/

/-- Whether what is heard at the end of a pipe is what was said at its start, up to a point.  As
long as the pump runs and the messages are read, those that are said and not heard are all on
their way. -/
structure Flow (own other : Link) (pump : Option Pump) (target : LinkId)
    (said heard : List Message) : Prop where
  leads : ∀ running, pump = some running → running.target = target
  counted : own.sent = other.received
  arrived : heard ++ other.inbound <+: said
  whole : ∀ running, pump = some running → other.attended = true →
    said = heard ++ other.inbound ++ running.held.toList ++ own.outbound

namespace Flow

variable {own other : Link} {pump : Option Pump} {running : Pump} {target : LinkId}
  {said heard : List Message}

theorem opened (own other : Link) (target : LinkId) (fresh : own.outbound = [])
    (unread : other.inbound = []) (counted : own.sent = other.received) :
    Flow own other (some ⟨target, none⟩) target [] [] where
  leads := by
    rintro running ⟨⟩
    rfl
  counted := counted
  arrived := by
    rw [unread]
    exact List.prefix_rfl
  whole := by
    rintro running ⟨⟩ _
    rw [fresh, unread]
    rfl

/-- Nothing else about the two links matters. -/
theorem congr (flow : Flow own other pump target said heard) {source end_ : Link}
    (outbound : source.outbound = own.outbound) (sent : source.sent = own.sent)
    (inbound : end_.inbound = other.inbound) (attended : end_.attended = other.attended)
    (received : end_.received = other.received) :
    Flow source end_ pump target said heard where
  leads := flow.leads
  counted := by rw [sent, received, flow.counted]
  arrived := by
    rw [inbound]
    exact flow.arrived
  whole := by
    rw [inbound, attended, outbound]
    exact flow.whole

/-- A message that is accepted waits behind the others. -/
theorem say (flow : Flow own other pump target said heard) (message : Message) :
    Flow { own with outbound := own.outbound ++ [message] } other pump target
      (said ++ [message]) heard where
  leads := flow.leads
  counted := flow.counted
  arrived := flow.arrived.trans (List.prefix_append said [message])
  whole := by
    intro running runs reads
    rw [flow.whole running runs reads, List.append_assoc _ own.outbound]

theorem hear (flow : Flow own other pump target said heard) {message : Message}
    {others : List Message} (waits : other.inbound = message :: others) :
    Flow own { other with inbound := others } pump target said (heard ++ [message]) where
  leads := flow.leads
  counted := flow.counted
  arrived := by
    have arrived := flow.arrived
    rw [waits] at arrived
    rw [List.append_assoc]
    exact arrived
  whole := by
    intro running runs reads
    rw [flow.whole running runs reads, waits]
    simp

/-- What was not read is lost, and nothing else will be heard. -/
theorem abandon (flow : Flow own other pump target said heard) :
    Flow own other.abandon pump target said heard where
  leads := flow.leads
  counted := flow.counted
  arrived := by
    show heard ++ [] <+: said
    rw [List.append_nil]
    exact (List.prefix_append heard other.inbound).trans flow.arrived
  whole := by
    rintro running _ ⟨⟩

/-- What a pump may do keeps the order of the messages. -/
theorem perform (flow : Flow own other (some running) target said heard) {move : Pump.Move}
    (may : running.May own other move) :
    Flow (running.perform own other move).source (running.perform own other move).target
      (running.perform own other move).pump target said heard := by
  have leads : running.target = target := flow.leads running rfl
  have whole := flow.whole running rfl
  cases may with
  | take message others free waits =>
      rw [free, waits] at whole
      refine ⟨?_, ?_, flow.arrived, ?_⟩
      · rintro next ⟨⟩
        exact leads
      · show own.sent + _ = other.received + _
        rw [flow.counted]
      · rintro next ⟨⟩ reads
        rw [whole reads]
        simp [Pump.perform, Link.countReceived]
  | deliver message holds reads room =>
      rw [holds] at whole
      refine ⟨?_, flow.counted, ?_, ?_⟩
      · rintro next ⟨⟩
        exact leads
      · rw [whole reads]
        simp [Pump.perform]
      · rintro next ⟨⟩ _
        rw [whole reads]
        simp [Pump.perform]
  | finish =>
      refine ⟨?_, flow.counted, flow.arrived, ?_⟩
      · rintro next ⟨⟩
      · rintro next ⟨⟩

end Flow

namespace Recorded

/-- Whether messages flow from one link to another one. -/
def Flows (recorded : Recorded) (source target : LinkId) : Prop :=
  ∃ own other, recorded.network.links.get? source = some own ∧
    recorded.network.links.get? target = some other ∧
      Flow own other (recorded.network.pumps.get? source) target (recorded.said source)
        (recorded.heard target)

variable {before after : Recorded} {source target : LinkId}

theorem get?_changeLink (network : Network) (id : LinkId) (change : Link → Link)
    (tested : LinkId) :
    (network.changeLink id change).links.get? tested =
      (network.links.get? tested).map fun link => if tested = id then change link else link :=
  Table.get?_modify network.links id change tested

theorem counts_changeLink (recorded : Recorded) (id : LinkId) (change : Link → Link)
    (sent : ∀ link, (change link).sent = link.sent)
    (received : ∀ link, (change link).received = link.received) (tested : LinkId) :
    counts { recorded with network := recorded.network.changeLink id change } tested =
      recorded.counts tested := by
  unfold counts
  rw [get?_changeLink, Option.map_map]
  congr 1
  funext link
  rw [Function.comp_apply]
  split
  · rw [sent, received]
  · rfl

theorem counts_send (recorded : Recorded) (id : LinkId) (message : Message) (tested : LinkId) :
    (recorded.send id message).counts tested = recorded.counts tested := by
  show ((recorded.network.links.send id message).2.get? tested).map _ = _
  rw [Links.get?_send]
  unfold counts
  split
  · next same =>
      rw [← same, Option.map_map]
      congr 1
      funext link
      rw [Function.comp_apply]
      unfold Link.send
      split <;> rfl
  · rfl

/-- Only pumps count bytes. -/
theorem Step.moved_or_counts_eq {first second : LinkId} (step : Step first second before after) :
    Moved before after ∨
      ∀ id, id = first ∨ id = second → after.counts id = before.counts id := by
  cases step with
  | sent id _ message => exact .inr fun tested _ => counts_send before id message tested
  | heard id _ link message others _ _ =>
      exact .inr fun tested _ => before.counts_changeLink id
        (fun link => { link with inbound := others }) (fun _ => rfl) (fun _ => rfl) tested
  | closed id _ reason =>
      exact .inr fun tested _ => before.counts_changeLink id
        (fun link => link.close reason) (fun _ => rfl) (fun _ => rfl) tested
  | abandoned id _ =>
      exact .inr fun tested _ => before.counts_changeLink id
        Link.abandon (fun _ => rfl) (fun _ => rfl) tested
  | identified id _ address =>
      exact .inr fun tested _ => before.counts_changeLink id
        (fun link => link.learnPeer address) (fun _ => rfl) (fun _ => rfl) tested
  | pumped id _ pump starting ending move runs _ _ may =>
      exact .inl ⟨id, pump, starting, ending, move, runs, may, rfl⟩
  | elsewhere network links _ =>
      refine .inr fun tested own => ?_
      unfold counts
      rw [links tested own]

/-- A change of the own link that leaves what it sends alone. -/
theorem Flows.changeSource (flows : before.Flows source target) (different : source ≠ target)
    {change : Link → Link} (outbound : ∀ link, (change link).outbound = link.outbound)
    (sent : ∀ link, (change link).sent = link.sent) :
    Flows { before with network := before.network.changeLink source change } source target := by
  obtain ⟨own, other, starts, ends, flow⟩ := flows
  refine ⟨change own, other, ?_, ?_, ?_⟩
  · rw [get?_changeLink, starts, Option.map_some, if_pos rfl]
  · rw [get?_changeLink, ends, Option.map_some, if_neg different.symm]
  · exact flow.congr (outbound own) (sent own) rfl rfl rfl

/-- A change of the other link that leaves what it receives alone. -/
theorem Flows.changeTarget (flows : before.Flows source target) (different : source ≠ target)
    {change : Link → Link} (inbound : ∀ link, (change link).inbound = link.inbound)
    (attended : ∀ link, (change link).attended = link.attended)
    (received : ∀ link, (change link).received = link.received) :
    Flows { before with network := before.network.changeLink target change } source target := by
  obtain ⟨own, other, starts, ends, flow⟩ := flows
  refine ⟨own, change other, ?_, ?_, ?_⟩
  · rw [get?_changeLink, starts, Option.map_some, if_neg different]
  · rw [get?_changeLink, ends, Option.map_some, if_pos rfl]
  · exact flow.congr rfl rfl (inbound other) (attended other) (received other)

theorem Flows.send_source (flows : before.Flows source target) (different : source ≠ target)
    (message : Message) : (before.send source message).Flows source target := by
  obtain ⟨own, other, starts, ends, flow⟩ := flows
  have accepted : (before.network.send source message).1 = (own.send message).1 := by
    unfold Network.send Links.send
    rw [starts]
  refine ⟨(own.send message).2, other, ?_, ?_, ?_⟩
  · show (before.network.links.send source message).2.get? source = _
    rw [Links.get?_send, if_pos rfl, starts, Option.map_some]
  · show (before.network.links.send source message).2.get? target = _
    rw [Links.get?_send, if_neg different, ends]
  · show Flow _ other _ target ((before.send source message).said source) (before.heard target)
    unfold send
    dsimp only
    rw [accepted]
    unfold Link.send
    split
    · rw [if_pos rfl, Function.update_self]
      exact flow.say message
    · rw [if_neg Bool.false_ne_true]
      exact flow

theorem Flows.send_target (flows : before.Flows source target) (different : source ≠ target)
    (message : Message) : (before.send target message).Flows source target := by
  obtain ⟨own, other, starts, ends, flow⟩ := flows
  refine ⟨own, (other.send message).2, ?_, ?_, ?_⟩
  · show (before.network.links.send target message).2.get? source = _
    rw [Links.get?_send, if_neg different.symm, starts]
  · show (before.network.links.send target message).2.get? target = _
    rw [Links.get?_send, if_pos rfl, ends, Option.map_some]
  · have said : (before.send target message).said source = before.said source := by
      unfold send
      dsimp only
      split
      · exact Function.update_of_ne different _ _
      · rfl
    rw [said]
    have same : (other.send message).2.inbound = other.inbound ∧
        (other.send message).2.attended = other.attended ∧
        (other.send message).2.received = other.received := by
      unfold Link.send
      split <;> exact ⟨rfl, rfl, rfl⟩
    exact flow.congr rfl rfl same.1 same.2.1 same.2.2

theorem Flows.read_source (flows : before.Flows source target) (different : source ≠ target)
    (message : Message) (others : List Message) :
    (before.read source message others).Flows source target := by
  have kept : Flows
      { before with
        network := before.network.changeLink source fun link => { link with inbound := others } }
      source target := flows.changeSource different (fun _ => rfl) fun _ => rfl
  obtain ⟨own, other, starts, ends, flow⟩ := kept
  refine ⟨own, other, starts, ends, ?_⟩
  show Flow own other _ target (before.said source)
    (Function.update before.heard source (before.heard source ++ [message]) target)
  rw [Function.update_of_ne different.symm]
  exact flow

theorem Flows.read_target (flows : before.Flows source target) (different : source ≠ target)
    {link : Link} {message : Message} {others : List Message}
    (known : before.network.links.get? target = some link)
    (waits : link.inbound = message :: others) :
    (before.read target message others).Flows source target := by
  obtain ⟨own, other, starts, ends, flow⟩ := flows
  rw [ends] at known
  cases known
  refine ⟨own, { link with inbound := others }, ?_, ?_, ?_⟩
  · show (before.network.changeLink target _).links.get? source = _
    rw [get?_changeLink, starts, Option.map_some, if_neg different]
  · show (before.network.changeLink target _).links.get? target = _
    rw [get?_changeLink, ends, Option.map_some, if_pos rfl]
  · show Flow own _ _ target (before.said source)
      (Function.update before.heard target (before.heard target ++ [message]) target)
    rw [Function.update_self]
    exact flow.hear waits

theorem Flows.abandon_target (flows : before.Flows source target) (different : source ≠ target) :
    Flows { before with network := before.network.changeLink target Link.abandon } source
      target := by
  obtain ⟨own, other, starts, ends, flow⟩ := flows
  refine ⟨own, other.abandon, ?_, ?_, flow.abandon⟩
  · rw [get?_changeLink, starts, Option.map_some, if_neg different]
  · rw [get?_changeLink, ends, Option.map_some, if_pos rfl]

/-- The pump from the own link moves messages on, in order. -/
theorem Flows.move_source (flows : before.Flows source target) (different : source ≠ target)
    {pump : Pump} {own other : Link} {move : Pump.Move}
    (runs : before.network.pumps.get? source = some pump)
    (starts : before.network.links.get? source = some own)
    (ends : before.network.links.get? pump.target = some other) (may : pump.May own other move) :
    Flows { before with network := before.network.afterMove source pump own other move } source
      target := by
  obtain ⟨known, end_, found, reached, flow⟩ := flows
  rw [runs] at flow
  have leads : pump.target = target := flow.leads pump rfl
  subst leads
  cases starts.symm.trans found
  cases ends.symm.trans reached
  refine ⟨_, _, afterMove_source different, afterMove_target, ?_⟩
  dsimp only
  rw [get?_pumps_afterMove, if_pos rfl]
  exact flow.perform may

/-- The pump from the other link leaves what the own link sends alone. -/
theorem Flows.move_target (flows : before.Flows source target) (different : source ≠ target)
    {pump : Pump} {own other : Link} {move : Pump.Move}
    (back : pump.target = source)
    (starts : before.network.links.get? target = some other)
    (ends : before.network.links.get? pump.target = some own) (may : pump.May other own move) :
    Flows { before with network := before.network.afterMove target pump other own move } source
      target := by
  obtain ⟨known, end_, found, reached, flow⟩ := flows
  subst back
  cases ends.symm.trans found
  cases starts.symm.trans reached
  refine ⟨_, _, afterMove_target, afterMove_source different.symm, ?_⟩
  dsimp only
  rw [get?_pumps_afterMove, if_neg different.symm]
  cases may with
  | take message others free waits => exact flow.congr rfl rfl rfl rfl rfl
  | deliver message holds reads room => exact flow.congr rfl rfl rfl rfl rfl
  | finish => exact flow.congr rfl rfl rfl rfl rfl

/-- Messages flow from one of two joined links to the other one after whatever may happen. -/
theorem Flows.step {source target : LinkId} (flows : before.Flows source target)
    (back : before.Flows target source) (different : source ≠ target)
    (step : Step source target before after) : after.Flows source target := by
  cases step with
  | sent id own message =>
      rcases own with rfl | rfl
      · exact flows.send_source different message
      · exact flows.send_target different message
  | heard id own link message others known waits =>
      rcases own with rfl | rfl
      · exact flows.read_source different message others
      · exact flows.read_target different known waits
  | closed id own reason =>
      rcases own with rfl | rfl
      · exact flows.changeSource different (fun _ => rfl) fun _ => rfl
      · exact flows.changeTarget different (fun _ => rfl) (fun _ => rfl) fun _ => rfl
  | abandoned id own =>
      rcases own with rfl | rfl
      · exact flows.changeSource different (fun _ => rfl) fun _ => rfl
      · exact flows.abandon_target different
  | identified id own address =>
      rcases own with rfl | rfl
      · exact flows.changeSource different (fun _ => rfl) fun _ => rfl
      · exact flows.changeTarget different (fun _ => rfl) (fun _ => rfl) fun _ => rfl
  | pumped id own pump starting ending move runs starts ends may =>
      rcases own with rfl | rfl
      · exact flows.move_source different runs starts ends may
      · obtain ⟨_, _, _, _, flow⟩ := back
        exact flows.move_target different (flow.leads pump runs) starts ends may
  | elsewhere network links pumps =>
      obtain ⟨own, other, starts, ends, flow⟩ := flows
      refine ⟨own, other, ?_, ?_, ?_⟩
      · exact (links source (.inl rfl)).trans starts
      · exact (links target (.inr rfl)).trans ends
      · dsimp only
        rw [pumps source (.inl rfl)]
        exact flow

end Recorded

/-! ## Joined links in use -/

/-- A network with two new links that are joined to each other. -/
def joinLinks (network : Network) (dialer listener : LinkId) (protocol : Protocol)
    (dialed : Option PeerAddress) (dialerNet listenerNet : Option NetAddress) : Network :=
  let network := network.openLink (.opened dialer .outbound protocol listenerNet dialed)
  let network := network.openLink (.opened listener .inbound protocol dialerNet none)
  network.couple dialer listener

namespace Recorded

/-- What may have come of a network since two links were joined in it. -/
inductive Reached (dialer listener : LinkId) : Recorded → Prop where
  | joined (network : Network) (protocol : Protocol) (dialed : Option PeerAddress)
      (dialerNet listenerNet : Option NetAddress) :
      Reached dialer listener
        ⟨network.joinLinks dialer listener protocol dialed dialerNet listenerNet, fun _ => [],
          fun _ => []⟩
  | step {before after : Recorded} (reached : Reached dialer listener before)
      (step : Step dialer listener before after) : Reached dialer listener after

variable {recorded : Recorded} {dialer listener : LinkId}

theorem Reached.flows (reached : Reached dialer listener recorded) (different : dialer ≠ listener) :
    recorded.Flows dialer listener ∧ recorded.Flows listener dialer := by
  induction reached with
  | joined network protocol dialed dialerNet listenerNet =>
      have own : (network.joinLinks dialer listener protocol dialed dialerNet
          listenerNet).links.get? dialer =
            some (.opened dialer .outbound protocol listenerNet dialed) := by
        simp [joinLinks, openLink, couple, Table.get?_insert, Link.opened, different.symm]
      have other : (network.joinLinks dialer listener protocol dialed dialerNet
          listenerNet).links.get? listener =
            some (.opened listener .inbound protocol dialerNet none) := by
        simp [joinLinks, openLink, couple, Table.get?_insert, Link.opened]
      have forth : (network.joinLinks dialer listener protocol dialed dialerNet
          listenerNet).pumps.get? dialer = some ⟨listener, none⟩ := by
        simp [joinLinks, openLink, couple, Table.get?_insert, different.symm]
      have back : (network.joinLinks dialer listener protocol dialed dialerNet
          listenerNet).pumps.get? listener = some ⟨dialer, none⟩ := by
        simp [joinLinks, openLink, couple, Table.get?_insert]
      refine ⟨⟨_, _, own, other, ?_⟩, ⟨_, _, other, own, ?_⟩⟩
      · dsimp only
        rw [forth]
        exact .opened _ _ listener rfl rfl rfl
      · dsimp only
        rw [back]
        exact .opened _ _ dialer rfl rfl rfl
  | step _ step flows =>
      exact ⟨flows.1.step flows.2 different step, flows.2.step flows.1 different.symm step.symm⟩

/-- A task of a pump between the links is one of the things that may happen. -/
theorem Reached.act (reached : Reached dialer listener recorded) (choices : Choices) {id : LinkId}
    (own : id = dialer ∨ id = listener) :
    Reached dialer listener
      { recorded with network := recorded.network.act choices (.pump id) } := by
  have idle {network : Network} {said heard : LinkId → List Message}
      (reached : Reached dialer listener ⟨network, said, heard⟩) :
      Reached dialer listener ⟨{ network with turns := network.turns + 1 }, said, heard⟩ :=
    reached.step (.elsewhere _ (fun _ _ => rfl) fun _ _ => rfl)
  obtain ⟨network, said, heard⟩ := recorded
  show Reached dialer listener
    ⟨{ network.perform choices (.pump id) with
        turns := (network.perform choices (.pump id)).turns + 1 }, said, heard⟩
  apply idle
  unfold perform
  dsimp only
  split
  · next pump source runs starts =>
      split
      · exact reached
      · next target ends =>
          rw [actPump_eq]
          cases next : pump.next? source target with
          | none => exact reached
          | some move =>
              exact reached.step
                (.pumped id own pump source target move runs starts ends (Pump.may_of_next? next).1)
  · exact reached

/-- Whatever is done with two joined links, and in whichever order the pumps between them run, what
is heard on each of them is what was said on the other one up to a point, in order and without
gaps or repetitions.  The bytes that the one has sent are those that the other one has received, at
any time and in both directions, and only pumps count them.  As long as the pump runs and the
messages are read, everything that was said and not heard is on its way. -/
theorem heard_prefix_said_and_bytes_agree (reached : Reached dialer listener recorded)
    (different : dialer ≠ listener) :
    ∃ first second, recorded.network.links.get? dialer = some first ∧
      recorded.network.links.get? listener = some second ∧
        (recorded.heard listener <+: recorded.said dialer ∧ first.sent = second.received) ∧
        (recorded.heard dialer <+: recorded.said listener ∧ second.sent = first.received) ∧
        (∀ pump, recorded.network.pumps.get? dialer = some pump → second.attended = true →
          recorded.said dialer =
            recorded.heard listener ++ second.inbound ++ pump.held.toList ++ first.outbound) ∧
        (∀ pump, recorded.network.pumps.get? listener = some pump → first.attended = true →
          recorded.said listener =
            recorded.heard dialer ++ first.inbound ++ pump.held.toList ++ second.outbound) ∧
        ∀ next, Step dialer listener recorded next → Moved recorded next ∨
          ∀ id, id = dialer ∨ id = listener → next.counts id = recorded.counts id := by
  obtain ⟨⟨first, second, starts, ends, forth⟩, ⟨start, end_, begins, stops, back⟩⟩ :=
    reached.flows different
  cases ends.symm.trans begins
  cases starts.symm.trans stops
  refine ⟨first, second, starts, ends, ⟨?_, forth.counted⟩, ⟨?_, back.counted⟩, forth.whole,
    back.whole, fun _ step => step.moved_or_counts_eq⟩
  · exact (List.prefix_append _ second.inbound).trans forth.arrived
  · exact (List.prefix_append _ first.inbound).trans back.arrived

/-! ## Two pings -/

/-- Two links that were joined in an empty network. -/
def pair : Recorded :=
  ⟨(Network.empty 0).joinLinks 1 2 .direct none none none, fun _ => [], fun _ => []⟩

/-- A ping was sent on the first link, and the pump has carried it to the second one. -/
def pairWithPing : Recorded :=
  let asked := pair.send 1 (.ping 9)
  { asked with
    network := (asked.network.act (.plain 0) (.pump 1)).act (.plain 1) (.pump 1) }

/-- The ping was read, another one was sent, and then the second link was closed. -/
def pairAfterClose : Recorded :=
  let again := (pairWithPing.read 2 (.ping 9) []).send 1 (.ping 10)
  { again with network := again.network.changeLink 2 fun link => link.close "done" }

theorem reached_pairAfterClose : Reached 1 2 pairAfterClose := by
  have joined : Reached 1 2 pair := .joined (.empty 0) .direct none none none
  have asked := joined.step (.sent 1 (.inl rfl) (.ping 9))
  have carried : Reached 1 2 pairWithPing :=
    (asked.act (.plain 0) (.inl rfl)).act (.plain 1) (.inl rfl)
  have read := carried.step (.heard 2 (.inr rfl) _ (.ping 9) [] rfl rfl)
  exact (read.step (.sent 1 (.inl rfl) (.ping 10))).step (.closed 2 (.inr rfl) "done")

theorem heard_prefix_said_pairAfterClose :
    Reached 1 2 pairAfterClose ∧ (1 : LinkId) ≠ 2 ∧
      pairAfterClose.said 1 = [.ping 9, .ping 10] ∧ pairAfterClose.heard 2 = [.ping 9] ∧
        pairAfterClose.heard 2 <+: pairAfterClose.said 1 := by
  have different : (1 : LinkId) ≠ 2 := by decide
  obtain ⟨_, _, _, _, ⟨arrived, _⟩, _⟩ :=
    heard_prefix_said_and_bytes_agree reached_pairAfterClose different
  exact ⟨reached_pairAfterClose, different, rfl, rfl, arrived⟩

end Recorded

end PeerOverlay.Network
