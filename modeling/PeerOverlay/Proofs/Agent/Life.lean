import PeerOverlay.Proofs.Agent.Lasting
import PeerOverlay.Proofs.Timers.Vigil

/-!
# The life of an agent

An agent does one task after the other.  In between its timers ring when they are due, the
manager and the transport do what they like with its link, and time passes.  Time never passes
by a timer that is due, and stands still until every alarm that has rung is answered; messages
may wait for as long as they like.
-/

namespace PeerOverlay

def Message.ping? : Message → Option UInt32
  | .ping nonce => some nonce
  | _ => none

/-- Whether a link may have become another one outside its agent: a link that was closed stays
closed, the first reason given stays, and an open link is given none. -/
structure Link.MayBecome (before after : Link) : Prop where
  id : after.id = before.id
  closed : before.closed = true → after.closed = true
  reason : ∀ reason, before.reason = some reason → after.reason = some reason
  untouched : after.closed = false → after.reason = before.reason

theorem Link.MayBecome.refl (link : Link) : link.MayBecome link :=
  ⟨rfl, fun closed => closed, fun _ given => given, fun _ => rfl⟩

theorem Link.MayBecome.lasts {before after : Link} (may : before.MayBecome after)
    (lasts : after.closed = false) : before.closed = false := by
  refine eq_false_of_ne_true fun closed => ?_
  rw [may.closed closed] at lasts
  cases lasts

theorem Link.mayBecome_deliver (link : Link) (message : Message) :
    link.MayBecome (link.deliver message).2 := by
  unfold Link.deliver
  split <;> exact ⟨rfl, fun closed => closed, fun _ given => given, fun _ => rfl⟩

namespace Agent

/-! ## Tasks -/

/-- What an agent can find to do. -/
inductive Comes (agent : Agent) (link : Link) : Task → Prop where
  | start (unstarted : agent.started = false) : Comes agent link .start
  | finish (started : agent.started = true) (going : agent.phase ≠ .closed)
      (closed : link.closed = true) : Comes agent link (.finish false)
  | alarm {alarm : Alarm} {others : List Alarm} (started : agent.started = true)
      (going : agent.phase ≠ .closed) (lasts : link.closed = false)
      (rung : agent.rung = alarm :: others) : Comes agent link (.alarm alarm others)
  | relay {addresses : List PeerAddress} {others : List (List PeerAddress)}
      (started : agent.started = true) (going : agent.phase ≠ .closed)
      (lasts : link.closed = false) (rung : agent.rung = [])
      (relays : agent.relays = addresses :: others) : Comes agent link (.relay addresses others)
  | message {message : Message} {others : List Message} (started : agent.started = true)
      (going : agent.phase ≠ .closed) (lasts : link.closed = false) (rung : agent.rung = [])
      (relays : agent.relays = []) (inbound : link.inbound = message :: others) :
      Comes agent link (.message message others)
  | exhausted (started : agent.started = true) (going : agent.phase ≠ .closed)
      (lasts : link.closed = false) (rung : agent.rung = []) (relays : agent.relays = [])
      (inbound : link.inbound = []) (gone : link.delivers = false) :
      Comes agent link (.finish true)

theorem comes_of_next {agent : Agent} {link : Link} {task : Task}
    (next : nextTask? agent link = some task) : Comes agent link task := by
  unfold nextTask? at next
  split at next
  · next unstarted =>
      cases next
      exact .start (by simpa using unstarted)
  · next notUnstarted =>
      have started : agent.started = true := by simpa using notUnstarted
      split at next
      · cases next
      · next going =>
          split at next
          · next closed =>
              cases next
              exact .finish started going closed
          · next notClosed =>
              have lasts : link.closed = false := by simpa using notClosed
              split at next
              · next rung =>
                  cases next
                  exact .alarm started going lasts rung
              · next rung relays =>
                  cases next
                  exact .relay started going lasts rung relays
              · next rung relays inbound =>
                  cases next
                  exact .message started going lasts rung relays inbound
              · next rung relays inbound =>
                  split at next
                  · cases next
                  · next gone =>
                      cases next
                      exact .exhausted started going lasts rung relays inbound (by simpa using gone)

/-- A task that an agent has done, and what it has found then. -/
structure Deed where
  around : Surroundings
  task : Task
  agent : Agent
  link : Link

namespace Deed

def now (deed : Deed) : Nat :=
  deed.around.now

def turn (deed : Deed) : Turn :=
  perform deed.around deed.task ⟨deed.agent, deed.link, []⟩

/-- The messages that were queued. -/
def queued (deed : Deed) : List Message :=
  deed.turn.link.outbound.drop deed.link.outbound.length

/-- The nonces of the pings that were queued. -/
def pings (deed : Deed) : List UInt32 :=
  deed.queued.filterMap Message.ping?

/-- Whether the answer to a ping was handled.  Before the version of the peer none is. -/
def Hears (deed : Deed) (nonce : UInt32) : Prop :=
  deed.agent.versionReceived = true ∧ ∃ others, deed.task = .message (.pong nonce) others

/-- Whether the agent has tried to queue its version. -/
def tries (deed : Deed) : Bool :=
  deed.agent.versionAttempts < deed.turn.agent.versionAttempts ||
    !deed.agent.versionSent && deed.turn.agent.versionSent

/-- Whether the agent has closed its link for a reason. -/
def Closes (deed : Deed) (reason : String) : Prop :=
  deed.link.closed = false ∧ deed.turn.link.closed = true ∧ deed.turn.link.reason = some reason

instance (deed : Deed) (reason : String) : Decidable (deed.Closes reason) :=
  inferInstanceAs (Decidable (_ ∧ _ ∧ _))

end Deed

/-! ## Lives -/

/-- An agent and its link at a moment. -/
structure Moment where
  now : Nat
  agent : Agent
  link : Link

namespace Moment

def vigil (moment : Moment) : Vigil Alarm :=
  ⟨moment.now, moment.agent.timers, moment.agent.rung⟩

/-- The deed that comes of doing a task now. -/
def deed (moment : Moment) (around : Surroundings) (task : Task) : Deed :=
  ⟨around, task, moment.agent, moment.link⟩

def after (moment : Moment) (deed : Deed) : Moment :=
  { moment with agent := deed.turn.agent, link := deed.turn.link }

/-- A timer rings. -/
def ring (moment : Moment) (number : Nat) : Moment :=
  { moment with
    agent := { moment.agent with
      timers := (moment.vigil.ring number).timers
      rung := (moment.vigil.ring number).rung } }

/-- What others bring: wishes of the manager, numbers of timers that are in use elsewhere, and
another state of the link. -/
def find (moment : Moment) (relays : List (List PeerAddress)) (released : Bool) (next : Nat)
    (link : Link) : Moment :=
  { moment with
    agent := { moment.agent with
      relays := relays
      released := released
      timers := { moment.agent.timers with next := next } }
    link := link }

end Moment

/-- What an agent may have done on a link by a moment, in order. -/
inductive Life (config : Config) (link : Link) : List Deed → Moment → Prop where
  | begin (now : Nat) (unclosed : link.closed = false → link.reason = none) :
      Life config link [] ⟨now, .new, link⟩
  | act {deeds : List Deed} {moment : Moment} {task : Task}
      (life : Life config link deeds moment) (around : Surroundings)
      (sameConfig : around.config = config) (sameTime : around.now = moment.now)
      (next : nextTask? moment.agent moment.link = some task) :
      Life config link (deeds ++ [moment.deed around task])
        (moment.after (moment.deed around task))
  | ring {deeds : List Deed} {moment : Moment} {timer : PeerOverlay.Alarm Alarm}
      (life : Life config link deeds moment)
      (runs : timer ∈ moment.agent.timers.running) (isDue : timer.due ≤ moment.now) :
      Life config link deeds (moment.ring timer.number)
  | meanwhile {deeds : List Deed} {moment : Moment} (life : Life config link deeds moment)
      (relays : List (List PeerAddress)) (released : Bool) (next : Nat) (found : Link)
      (above : moment.agent.timers.next ≤ next) (may : moment.link.MayBecome found) :
      Life config link deeds (moment.find relays released next found)
  | pass {deeds : List Deed} {moment : Moment} (life : Life config link deeds moment)
      (later : Nat) (forward : moment.now ≤ later)
      (answered : moment.agent.phase ≠ .closed → moment.agent.rung = [])
      (ahead : ∀ timer ∈ moment.agent.timers.running, later ≤ timer.due) :
      Life config link deeds { moment with now := later }

namespace Life

variable {config : Config} {link : Link} {deeds : List Deed} {moment : Moment}

/-- An agent starts with its first task. -/
theorem started_iff (life : Life config link deeds moment) :
    moment.agent.started = true ↔ deeds ≠ [] := by
  induction life with
  | begin now unclosed => exact ⟨(fun other => by cases other), fun other => absurd rfl other⟩
  | @act deeds moment task life around sameConfig sameTime next hypothesis =>
      refine ⟨fun _ => List.append_ne_nil_of_right_ne_nil _ (List.cons_ne_nil _ _), fun _ => ?_⟩
      cases ends : task.ends with
      | false => exact started_perform next ends
      | true =>
          have finished {byRemote : Bool} (started : moment.agent.started = true) :
              (finish byRemote ⟨moment.agent, moment.link, []⟩).agent.started = true := by
            unfold finish
            split
            · exact started
            · cases byRemote <;> exact started
          cases comes_of_next next with
          | finish started going closed => exact finished started
          | exhausted started going lasts rung relays inbound gone => exact finished started
          | _ => cases ends
  | ring life runs isDue hypothesis => exact hypothesis
  | meanwhile life relays released next found above may hypothesis => exact hypothesis
  | pass life later forward answered ahead hypothesis => exact hypothesis

theorem unstarted (life : Life config link [] moment) : moment.agent.started = false :=
  eq_false_of_ne_true fun started => life.started_iff.1 started rfl

/-- Once the version of the peer is accepted, the peer is known. -/
theorem peer_of_received (life : Life config link deeds moment) :
    moment.agent.versionReceived = true → moment.agent.peer.isSome := by
  induction life with
  | begin now unclosed => exact fun other => by cases other
  | @act deeds moment task life around sameConfig sameTime next hypothesis =>
      have exchanged := exchanged_perform around task ⟨moment.agent, moment.link, []⟩
      show (perform around task ⟨moment.agent, moment.link, []⟩).exchange.received = true →
        (perform around task ⟨moment.agent, moment.link, []⟩).exchange.peer.isSome
      cases exchanged with
      | kept messages events quiet same =>
          rw [same]
          exact hypothesis
      | announced unsent messages same =>
          rw [same]
          exact hypothesis
      | accepted version came unreceived fits messages same =>
          rw [same]
          exact fun _ => rfl
  | ring life runs isDue hypothesis => exact hypothesis
  | meanwhile life relays released next found above may hypothesis => exact hypothesis
  | pass life later forward answered ahead hypothesis => exact hypothesis

end Life

/-! ## What is so at every deed -/

/-- Whether something is so of every deed and the deeds before it. -/
def EachDeed (kind : List Deed → Deed → Prop) (deeds : List Deed) : Prop :=
  ∀ earlier deed, earlier ++ [deed] <+: deeds → kind earlier deed

/-- The last deed is one of them. -/
theorem EachDeed.getLast {kind : List Deed → Deed → Prop} {deeds : List Deed}
    (each : EachDeed kind deeds) (some_ : deeds ≠ []) :
    kind deeds.dropLast (deeds.getLast some_) := by
  refine each _ _ ⟨[], ?_⟩
  rw [List.append_nil, List.dropLast_append_getLast]

theorem eachDeed_nil {kind : List Deed → Deed → Prop} : EachDeed kind [] := by
  intro earlier deed initial
  exact absurd (List.prefix_nil.1 initial) (List.append_ne_nil_of_right_ne_nil _ (by simp))

theorem eachDeed_concat {kind : List Deed → Deed → Prop} {deeds : List Deed} {deed : Deed} :
    EachDeed kind (deeds ++ [deed]) ↔ EachDeed kind deeds ∧ kind deeds deed := by
  constructor
  · intro each
    exact ⟨fun earlier tested initial =>
        each earlier tested (initial.trans (List.prefix_append _ _)),
      each deeds deed (List.prefix_refl _)⟩
  · rintro ⟨each, last⟩ earlier tested initial
    rcases List.prefix_concat_iff.1 initial with whole | part
    · obtain ⟨rfl, same⟩ := List.append_inj' whole rfl
      rw [List.head_eq_of_cons_eq same]
      exact last
    · exact each earlier tested part

/-- What is so of every task that comes up in a life is so of all deeds. -/
theorem Life.eachDeed {config : Config} {link : Link} {deeds : List Deed} {moment : Moment}
    {kind : List Deed → Deed → Prop}
    (each : ∀ {deeds : List Deed} {moment : Moment} {task : Task} (around : Surroundings),
      Life config link deeds moment → around.config = config → around.now = moment.now →
      nextTask? moment.agent moment.link = some task → kind deeds (moment.deed around task))
    (life : Life config link deeds moment) : EachDeed kind deeds := by
  induction life with
  | begin now unclosed => exact eachDeed_nil
  | act life around sameConfig sameTime next hypothesis =>
      exact eachDeed_concat.2 ⟨hypothesis, each around life sameConfig sameTime next⟩
  | ring life runs isDue hypothesis => exact hypothesis
  | meanwhile life relays released next found above may hypothesis => exact hypothesis
  | pass life later forward answered ahead hypothesis => exact hypothesis

/-! ## Lives that are told step by step -/

/-- Something that happens to an agent. -/
inductive Happening where
  /-- The next task is done, with a nonce for a ping at hand. -/
  | act (nonce : UInt32)
  /-- The first of the timers that are due rings. -/
  | ring
  | deliver (message : Message)
  | close (reason : String)
  /-- The transport is gone. -/
  | hangUp
  | pass (later : Nat)

/-- What comes of something that happens, if it can happen. -/
def Happening.enter (around : Surroundings) (happening : Happening) (deeds : List Deed)
    (moment : Moment) : Option (List Deed × Moment) :=
  match happening with
  | .act nonce =>
      (nextTask? moment.agent moment.link).map fun task =>
        let deed := moment.deed { around with now := moment.now, nonce := nonce } task
        (deeds ++ [deed], moment.after deed)
  | .ring =>
      (moment.agent.timers.running.find? (·.due ≤ moment.now)).map fun timer =>
        (deeds, moment.ring timer.number)
  | .deliver message =>
      some (deeds, moment.find moment.agent.relays moment.agent.released
        moment.agent.timers.next (moment.link.deliver message).2)
  | .close reason =>
      some (deeds, moment.find moment.agent.relays moment.agent.released
        moment.agent.timers.next (moment.link.close reason))
  | .hangUp =>
      some (deeds, moment.find moment.agent.relays moment.agent.released
        moment.agent.timers.next moment.link.drop)
  | .pass later =>
      if moment.now ≤ later ∧ (moment.agent.phase ≠ .closed → moment.agent.rung = []) ∧
          ∀ timer ∈ moment.agent.timers.running, later ≤ timer.due then
        some (deeds, { moment with now := later })
      else
        none

/-- What comes of all that happens to an agent from its beginning on. -/
def told (around : Surroundings) (link : Link) (happenings : List Happening) :
    Option (List Deed × Moment) :=
  happenings.foldlM (fun record happening => happening.enter around record.1 record.2)
    ([], ⟨0, .new, link⟩)

/-- The deeds of a life that is told, and the moment to which it has come. -/
def toldLife (around : Surroundings) (link : Link) (happenings : List Happening)
    (possible : (told around link happenings).isSome) : List Deed × Moment :=
  (told around link happenings).get possible

theorem Life.enter {around : Surroundings} {link : Link} {deeds after : List Deed}
    {moment later : Moment} (life : Life around.config link deeds moment)
    {happening : Happening} (entered : happening.enter around deeds moment = some (after, later)) :
    Life around.config link after later := by
  cases happening with
  | act nonce =>
      obtain ⟨task, next, same⟩ := Option.map_eq_some_iff.1 entered
      cases same
      exact life.act _ rfl rfl next
  | ring =>
      obtain ⟨timer, found, same⟩ := Option.map_eq_some_iff.1 entered
      cases same
      exact life.ring (List.mem_of_find?_eq_some found) (by simpa using List.find?_some found)
  | deliver message =>
      cases entered
      exact life.meanwhile _ _ _ _ (Nat.le_refl _) (moment.link.mayBecome_deliver message)
  | close reason =>
      cases entered
      refine life.meanwhile _ _ _ _ (Nat.le_refl _) ⟨rfl, fun _ => rfl, ?_, nofun⟩
      intro first given
      show some (moment.link.reason.getD reason) = some first
      rw [given]
      rfl
  | hangUp =>
      cases entered
      exact life.meanwhile _ _ _ _ (Nat.le_refl _)
        ⟨rfl, fun closed => closed, fun _ given => given, fun _ => rfl⟩
  | pass later =>
      unfold Happening.enter at entered
      dsimp only at entered
      split at entered
      · next possible =>
          cases entered
          exact life.pass later possible.1 possible.2.1 possible.2.2
      · cases entered

theorem life_of_told {around : Surroundings} {link : Link} {happenings : List Happening}
    (unclosed : link.closed = false → link.reason = none)
    (possible : (told around link happenings).isSome) :
    Life around.config link (toldLife around link happenings possible).1
      (toldLife around link happenings possible).2 := by
  have lives : ∀ (happenings : List Happening) (record last : List Deed × Moment),
      Life around.config link record.1 record.2 →
      happenings.foldlM (fun record happening => happening.enter around record.1 record.2)
        record = some last → Life around.config link last.1 last.2 := by
    intro happenings
    induction happenings with
    | nil =>
        intro record last life all
        cases all
        exact life
    | cons first rest hypothesis =>
        intro record last life all
        rw [List.foldlM_cons] at all
        obtain ⟨entered, now, all⟩ := Option.bind_eq_some_iff.1 all
        exact hypothesis entered last (life.enter now) all
  exact lives happenings _ _ (.begin 0 unclosed) (Option.some_get possible).symm

/-- The host announces itself at once. -/
def hostGreets : List Happening :=
  [.act 0, .deliver (.version {
    version := protocolVersion
    peerAddress := .fresh (.direct "2.2.2.2" defaultPort) .full 0
    genesisHash := "genesis"
    startHeight := 7
    totalWork := 9 }), .act 0]

end Agent

end PeerOverlay
