import PeerOverlay.Proofs.Network.Meeting

/-!
# Meetings on an open connection

As long as neither end of a connection is closed, nobody comes to an end.  Then the
managers are told of all that their agents find out, and a version that was announced
has come to the other agent or is on its way.
-/

namespace PeerOverlay

open Manager (Part)

namespace Network

/-- Whether an agent goes on, and has queued something only after its first step. -/
structure AgentLasts (progress : Agent.Progress) (queued : List Message) : Prop where
  phase : progress.phase ≠ .closed
  sent : progress.started = true → progress.sent = true
  fresh : progress.started = false → queued = [] ∧ progress.sent = false
  known : progress.received = true → progress.peer.isSome

namespace Half

/-- What else there is at one end of a connection while both ends are open. -/
structure Lively (half : Half) : Prop where
  attended : half.link.attended = true
  takes : half.link.takes = true
  delivers : half.link.delivers = true
  pump : half.pump.isSome
  waiting : half.progress = none → half.handed ≠ [] ∧ half.link.outbound = []
  seated : half.progress.isSome → half.seated = true
  lasts : ∀ progress, half.progress = some progress → AgentLasts progress half.link.outbound
  ended : half.ended = []
  told : half.peers.length = half.completed

/-- Whether a half has heard the version of the other one as soon as it is announced, or
will hear it. -/
def Hears (half opposite : Half) : Prop :=
  opposite.sent = true →
    half.received = true ∨ ∃ said, .version said ∈ half.link.inbound ++ opposite.leaving

/-- What is the same in a half as long as only its manager is at work. -/
structure Holds (before after : Half) : Prop where
  link : after.link = before.link
  pump : after.pump = before.pump
  sent : after.sent = before.sent
  received : after.received = before.received

variable {half opposite after : Half} {side own other : Side} {ownChains otherChains : List Chain}

theorem Hears.of_holds (hears : half.Hears opposite) {reached across : Half}
    (here : Holds half reached) (there : Holds opposite across) : reached.Hears across := by
  intro sent
  rw [there.sent] at sent
  unfold Half.leaving
  rw [here.received, here.link, there.pump, there.link]
  exact hears sent

theorem Holds.refl (half : Half) : Holds half half := ⟨rfl, rfl, rfl, rfl⟩

theorem Holds.trans {middle : Half} (first : Holds half middle) (second : Holds middle after) :
    Holds half after :=
  ⟨second.link.trans first.link, second.pump.trans first.pump, second.sent.trans first.sent,
    second.received.trans first.received⟩

theorem Holds.of_progress (progress : after.progress = half.progress)
    (link : after.link = half.link) (pump : after.pump = half.pump) : Holds half after := by
  refine ⟨link, pump, ?_, ?_⟩
  · unfold Half.sent
    rw [progress]
  · unfold Half.received
    rw [progress]

namespace Lively

/-! ## Managers -/

/-- A half in which something was brought from one place to another. -/
theorem of_same (lively : half.Lively) (handed : after.handed = half.handed)
    (peers : after.peers.length = half.peers.length) (ended : after.ended = half.ended)
    (progress : after.progress = half.progress)
    (seated : half.seated = true → after.seated = true) (link : after.link = half.link)
    (pump : after.pump = half.pump) : after.Lively ∧ Holds half after := by
  have holds := Holds.of_progress progress link pump
  refine ⟨⟨?_, ?_, ?_, ?_, ?_, ?_, ?_, ended.trans lively.ended, ?_⟩, holds⟩
  · rw [link]
    exact lively.attended
  · rw [link]
    exact lively.takes
  · rw [link]
    exact lively.delivers
  · rw [pump]
    exact lively.pump
  · rw [progress, handed, link]
    exact lively.waiting
  · rw [progress]
    exact fun attends => seated (lively.seated attends)
  · rw [progress, link]
    exact lively.lasts
  · unfold Half.completed
    rw [peers, holds.sent, holds.received]
    exact lively.told

theorem check (lively : half.Lively) (checks : Nat) :
    (half.check checks).Lively ∧ Holds half (half.check checks) :=
  lively.of_same (half.handed_check checks) (congrArg List.length (half.peers_check checks))
    (half.ended_check checks) rfl id rfl rfl

theorem attends_of_told (lively : half.Lively) {peer : Peer} (member : peer ∈ half.peers) :
    half.progress.isSome := by
  have told := lively.told
  have some_ := List.length_pos_of_mem member
  unfold Half.completed Half.sent at told
  cases progress : half.progress with
  | some progress => rfl
  | none =>
      rw [progress] at told
      exact absurd told (Nat.ne_of_gt some_)

/-- A manager that closes nothing loses nothing. -/
theorem led {part : Part} {others : List Part} (lively : half.Lively)
    (sound : half.Sound own other ownChains otherChains)
    (first : half.parts = part :: others) (led : Led { half with parts := others } part after)
    (lasting : after.link.closed = false) : after.Lively ∧ Holds half after := by
  cases led with
  | refused id reason => cases lasting
  | turnedAway peer reason => cases lasting
  | banned id reason => cases lasting
  | missed peer unseated =>
      -- Nobody announces itself before the link has a slot.
      have told : peer ∈ half.peers := by
        unfold Half.peers
        rw [first]
        simp [Part.handshake?]
      have seated := lively.seated (lively.attends_of_told told)
      exact absurd (seated.symm.trans unseated) (by decide)
  | ended id seated =>
      have ended := lively.ended
      unfold Half.ended at ended
      rw [first] at ended
      cases ended
  | idle link peer lasts =>
      refine lively.of_same ?_ ?_ ?_ rfl id rfl rfl
      · unfold Half.handed
        rw [first, List.filterMap_cons_none link]
      · unfold Half.peers
        rw [first, List.filterMap_cons_none peer]
      · unfold Half.ended
        rw [first, List.filterMap_cons_none lasts]
  | takenIn id =>
      obtain ⟨unattended, _⟩ := sound.unattended first
      obtain ⟨_, unused⟩ := lively.waiting unattended
      have told := lively.told
      have ended := lively.ended
      unfold Half.peers Half.completed Half.sent at told
      unfold Half.ended at ended
      rw [first, unattended] at told
      rw [first] at ended
      have lasts : AgentLasts .new half.link.outbound :=
        ⟨(fun closed => by cases closed), (fun started => by cases started),
          fun _ => ⟨unused, rfl⟩, fun received => by cases received⟩
      refine ⟨⟨lively.attended, lively.takes, lively.delivers, lively.pump, ?_, fun _ => rfl, ?_,
        ended, told⟩, rfl, rfl, ?_, ?_⟩
      · intro nobody
        cases nobody
      · intro progress same
        cases same
        exact lasts
      · unfold Half.sent
        rw [unattended]
        rfl
      · unfold Half.received
        rw [unattended]
        rfl
  | joined peer slot =>
      refine lively.of_same ?_ ?_ ?_ rfl (fun _ => rfl) rfl rfl
      · unfold Half.handed
        rw [first]
        rfl
      · unfold Half.peers
        rw [first]
        simp [Part.handshake?]
      · unfold Half.ended
        rw [first]
        rfl

theorem managed (lively : half.Lively) (sound : half.Sound own other ownChains otherChains)
    (manages : half.Manages after) (lasting : after.link.closed = false) :
    after.Lively ∧ Holds half after := by
  cases manages with
  | checked free =>
      refine lively.of_same ?_ ?_ ?_ rfl id rfl rfl
      · unfold Half.handed
        rw [free]
        rfl
      · unfold Half.peers
        rw [free]
        rfl
      · unfold Half.ended
        rw [free]
        rfl
  | took event others parts free first leaves checks =>
      have taken : Lively { half with events := others, parts := parts } ∧
          Holds half { half with events := others, parts := parts } := by
        refine lively.of_same ?_ ?_ ?_ rfl id rfl rfl
        · unfold Half.handed
          rw [free, first, leaves.link]
          cases handed : event.connection? <;> simp [handed]
        · unfold Half.peers
          rw [free, first, leaves.peer]
          cases announced : event.handshake? <;> simp [announced]
        · unfold Half.ended
          rw [free, first, leaves.ended]
          cases over_ : event.closed? <;> simp [over_]
      obtain ⟨checked, holds⟩ := taken.1.check checks
      exact ⟨checked, taken.2.trans holds⟩
  | did part others first after done checks =>
      obtain ⟨done, held⟩ := lively.led sound first done lasting
      obtain ⟨checked, holds⟩ := done.check checks
      exact ⟨checked, held.trans holds⟩

/-! ## Agents -/

theorem goesOn_of_open {around : Agent.Surroundings} {agent : Agent} {task : Agent.Task}
    (next : agent.nextTask? half.link = some task)
    (lasting : (Agent.perform around task ⟨agent, half.link, []⟩).link.closed = false) :
    task.ends = false ∧ half.link.closed = false := by
  constructor
  · cases ends : task.ends with
    | false => rfl
    | true => exact absurd ((Agent.closed_of_ends next ends).symm.trans lasting) (by decide)
  · cases closed : half.link.closed with
    | false => rfl
    | true =>
        have still := Agent.closed_perform around task agent half.link closed
        exact absurd (still.symm.trans lasting) (by decide)

theorem acted {chains : List Chain} (lively : half.Lively) (acts : half.Acts side chains after)
    (lasting : after.link.closed = false) : after.Lively := by
  cases acts with
  | step around agent task reached next address =>
      obtain ⟨goesOn, open_⟩ := goesOn_of_open next lasting
      have exchanged := Agent.exchanged_perform around task ⟨agent, half.link, []⟩
      have lasts : Agent.Lasts around (task.begin ⟨agent, half.link, []⟩) _ :=
        Agent.lasts_perform goesOn _
      have before := lively.lasts _ reached
      have started : (Agent.perform around task ⟨agent, half.link, []⟩).agent.started = true :=
        Agent.started_perform next goesOn
      have room (unstarted : agent.started = false) : half.link.canSend := by
        unfold Link.canSend
        rw [open_, lively.takes, (before.fresh unstarted).1]
        decide
      have sent : (Agent.perform around task ⟨agent, half.link, []⟩).agent.versionSent = true :=
        Agent.announced_perform next before.phase before.sent room
      refine ⟨?_, ?_, ?_, lively.pump, ?_, ?_, ?_, ?_, ?_⟩
      · refine lasts.attended.trans (Eq.trans ?_ lively.attended)
        cases task <;> rfl
      · refine lasts.takes.trans (Eq.trans ?_ lively.takes)
        cases task <;> rfl
      · refine lasts.delivers.trans (Eq.trans ?_ lively.delivers)
        cases task <;> rfl
      · intro nobody
        cases nobody
      · intro _
        refine lively.seated ?_
        rw [reached]
        rfl
      · intro progress same
        cases same
        refine ⟨?_, fun _ => sent, ?_, exchanged.known before.known⟩
        · apply lasts.phase
          cases task <;> exact before.phase
        · intro unstarted
          exact absurd (started.symm.trans unstarted) (by decide)
      · rw [ended_act, lively.ended, lasts.events]
        cases task <;> rfl
      · have told := exchanged.length_told_eq rfl before.known
        have count := lively.told
        rw [completed_eq reached half.link []] at count
        rw [peers_act, List.length_append, count, Nat.add_comm]
        exact told

/-- An agent still will hear of the other node, or has done so. -/
theorem hears_acted {chains : List Chain} (hears : half.Hears opposite)
    (acts : half.Acts side chains after) (lasting : after.link.closed = false) :
    after.Hears opposite := by
  cases acts with
  | step around agent task reached next address =>
      obtain ⟨goesOn, open_⟩ := goesOn_of_open next lasting
      have exchanged := Agent.exchanged_perform around task ⟨agent, half.link, []⟩
      intro sent
      rcases hears sent with received | ⟨said, waits⟩
      · unfold Half.received at received
        rw [reached] at received
        exact .inl (exchanged.received received)
      · rcases List.mem_append.1 waits with here | coming
        · have still : _ ∈ (Agent.perform around task ⟨agent, half.link, []⟩).link.inbound ∨ _ :=
            Agent.waits_perform next goesOn here
          rcases still with later | ⟨others, now⟩
          · exact .inr ⟨said, List.mem_append_left _ later⟩
          · subst now
            exact .inl (Agent.received_of_version open_ lasting)
        · exact .inr ⟨said, List.mem_append_right _ coming⟩

/-- What an agent announces will be heard. -/
theorem heard_acted {chains : List Chain} (hears : opposite.Hears half)
    (acts : half.Acts side chains after) : opposite.Hears after := by
  cases acts with
  | step around agent task reached next address =>
      have accounted : Agent.Accounted around task agent half.link _ :=
        Agent.accounted_perform next
      obtain ⟨queued, outbound, _⟩ := accounted.outbound
      intro sent
      rw [leaving_act half outbound]
      cases before : agent.versionSent with
      | true =>
          have announced : half.sent = true := by
            unfold Half.sent
            rw [reached]
            exact before
          rcases hears announced with received | ⟨said, waits⟩
          · exact .inl received
          · refine .inr ⟨said, ?_⟩
            rw [← List.append_assoc]
            exact List.mem_append_left queued waits
      | false =>
          have versions := Agent.versionsAfter_perform around task agent half.link
          have now : (Agent.perform around task ⟨agent, half.link, []⟩).agent.versionSent = true :=
            sent
          rw [now, before, Agent.versionsAfter_of_outbound outbound] at versions
          have listed : around.ownVersion ∈ queued.filterMap Message.version? := by
            rw [versions]
            exact List.mem_cons_self
          obtain ⟨message, member, same⟩ := List.mem_filterMap.1 listed
          rw [Message.eq_version same] at member
          exact .inr ⟨_, List.mem_append_right _ (List.mem_append_right _ member)⟩

/-! ## Pumps -/

/-- A pump between open ends carries everything to the other end. -/
theorem pumped {source target : Half} (lively : half.Lively) (across : opposite.Lively)
    (hears : opposite.Hears half) (pumps : half.Pumps opposite source target)
    (ownLasting : source.link.closed = false) (otherLasting : target.link.closed = false) :
    source.Lively ∧ target.Lively ∧ target.Hears source := by
  cases pumps with
  | took message others free waiting bytes =>
      have used {P : Prop} (unused : half.link.outbound = []) : P := by
        rw [waiting] at unused
        cases unused
      refine ⟨⟨lively.attended, lively.takes, lively.delivers, rfl, ?_, lively.seated, ?_,
          lively.ended, lively.told⟩,
        ⟨across.attended, across.takes, across.delivers, across.pump, across.waiting,
          across.seated, across.lasts, across.ended, across.told⟩, ?_⟩
      · exact fun nobody => used (lively.waiting nobody).2
      · intro progress same
        have lasts := lively.lasts progress same
        exact ⟨lasts.phase, lasts.sent, fun unstarted => used (lasts.fresh unstarted).1,
          lasts.known⟩
      · intro sent
        have coming := hears sent
        unfold Half.leaving at coming
        rw [free, waiting] at coming
        exact coming
  | delivered message holds =>
      refine ⟨⟨lively.attended, lively.takes, lively.delivers, rfl, lively.waiting, lively.seated,
          lively.lasts, lively.ended, lively.told⟩,
        ⟨across.attended, across.takes, across.delivers, across.pump, across.waiting,
          across.seated, across.lasts, across.ended, across.told⟩, ?_⟩
      intro sent
      have coming := hears sent
      unfold Half.leaving at coming
      rw [holds] at coming
      show _ ∨ ∃ said, _ ∈ (opposite.link.inbound ++ [message]) ++ half.link.outbound
      rw [List.append_assoc]
      exact coming
  | finished over_ =>
      exfalso
      rcases over_ with closed | closed | unattended
      · exact absurd (ownLasting.symm.trans closed) (by decide)
      · exact absurd (otherLasting.symm.trans closed) (by decide)
      · exact absurd (across.attended.symm.trans unattended) (by decide)

end Lively

theorem Manages.lasting (manages : half.Manages after) (lasting : after.link.closed = false) :
    half.link.closed = false := by
  cases manages with
  | checked free => exact lasting
  | took event others parts free first leaves checks => exact lasting
  | did part others first after led checks =>
      cases led with
      | refused id reason => cases lasting
      | turnedAway peer reason => cases lasting
      | banned id reason => cases lasting
      | _ => exact lasting

/-! ## Steps -/

/-- What else there is at both ends while both are open. -/
structure Talks (half opposite : Half) : Prop where
  own : half.Lively
  other : opposite.Lively
  hears : half.Hears opposite
  heard : opposite.Hears half

theorem Talks.swap (talks : half.Talks opposite) : opposite.Talks half :=
  ⟨talks.other, talks.own, talks.heard, talks.hears⟩

/-- Whether both ends talk unless one of them is closed. -/
def TalksIfOpen (half opposite : Half) : Prop :=
  half.link.closed = false → opposite.link.closed = false → half.Talks opposite

theorem TalksIfOpen.swap (talks : half.TalksIfOpen opposite) : opposite.TalksIfOpen half :=
  fun other own => (talks own other).swap

theorem TalksIfOpen.stepped {source target : Half} {chains : List Chain}
    (talks : half.TalksIfOpen opposite) (sound : half.Sound own other ownChains otherChains)
    (steps : half.Steps own opposite chains source target) : source.TalksIfOpen target := by
  intro ownLasting otherLasting
  cases steps with
  | stays => exact talks ownLasting otherLasting
  | checked checks =>
      have before := talks ownLasting otherLasting
      obtain ⟨lively, holds⟩ := before.own.check checks
      exact ⟨lively, before.other, before.hears.of_holds holds (.refl opposite),
        before.heard.of_holds (.refl opposite) holds⟩
  | managed after manages =>
      have before := talks (manages.lasting ownLasting) otherLasting
      obtain ⟨lively, holds⟩ := before.own.managed sound manages ownLasting
      exact ⟨lively, before.other, before.hears.of_holds holds (.refl opposite),
        before.heard.of_holds (.refl opposite) holds⟩
  | acted chains after acts =>
      have lasting : half.link.closed = false := by
        cases acts with
        | step around agent task reached next address =>
            exact (Lively.goesOn_of_open next ownLasting).2
      have before := talks lasting otherLasting
      exact ⟨before.own.acted acts ownLasting, before.other,
        Lively.hears_acted before.hears acts ownLasting, Lively.heard_acted before.heard acts⟩
  | pumped source target pumps =>
      have lasting : half.link.closed = false ∧ opposite.link.closed = false := by
        cases pumps <;> exact ⟨ownLasting, otherLasting⟩
      have before := talks lasting.1 lasting.2
      obtain ⟨left, reached, heard⟩ := before.own.pumped before.other before.heard pumps
        ownLasting otherLasting
      refine ⟨left, reached, ?_, heard⟩
      cases pumps <;> exact before.hears

end Half

end Network

end PeerOverlay
