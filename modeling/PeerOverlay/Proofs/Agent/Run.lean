import PeerOverlay.Proofs.Agent.Exchange

/-!
# Runs of an agent

A run is a sequence of steps of one agent.  Before every step the alarms, what
the manager wants and the queues of the link may have changed in any way, and the
link may have been closed; but it stays the same link, to the same address.  The
record of a run holds what the agent has told the manager and queued for the
transport so far.
-/

namespace PeerOverlay.Agent

/-- What an agent finds when it takes a step. -/
structure Step where
  around : Surroundings
  timers : Timers Alarm Alarm
  rung : List Alarm
  relays : List (List PeerAddress)
  link : Link

/-- A version that was accepted, and the first block of the chain of this node at
that time. -/
structure Acceptance where
  version : Version
  genesisHash : String

/-- An agent and its link, and what has come of its steps. -/
structure Record where
  agent : Agent
  link : Link
  /-- What the manager was told, in order. -/
  events : List Event
  /-- The messages that the agent has queued, in order. -/
  queued : List Message
  accepted : List Acceptance

/-- The version that is accepted in a turn in which it has come. -/
def accepted? (around : Surroundings) (heard : Option Version) (before after : Exchange) :
    Option Acceptance :=
  if !before.received && after.received then
    heard.map fun version => ⟨version, around.chain.genesisHash⟩
  else
    none

namespace Record

/-- The record of an agent that has just come to a link. -/
def fresh (link : Link) : Record where
  agent := .new
  link := link
  events := []
  queued := []
  accepted := []

/-- The agent as it is when a step begins. -/
def agentAt (record : Record) (step : Step) : Agent :=
  { record.agent with timers := step.timers, rung := step.rung, relays := step.relays }

/-- The link as the agent finds it when a step begins. -/
def linkAt (record : Record) (step : Step) : Link :=
  { step.link with id := record.link.id, peerAddress := record.link.peerAddress }

def start (record : Record) (step : Step) : Turn :=
  ⟨record.agentAt step, record.linkAt step, []⟩

def task? (record : Record) (step : Step) : Option Task :=
  nextTask? (record.agentAt step) (record.linkAt step)

/-- Enter a task that was done in a step. -/
def note (record : Record) (step : Step) (task : Task) : Record :=
  let before := record.start step
  let after := perform step.around task before
  {
    agent := after.agent
    link := after.link
    events := record.events ++ after.events
    queued := record.queued ++ after.link.outbound.drop before.link.outbound.length
    accepted := record.accepted ++
      (accepted? step.around task.version? before.exchange after.exchange).toList
  }

/-- Enter a step.  If there is nothing to do, nothing comes of it. -/
def enter (record : Record) (step : Step) : Record :=
  match record.task? step with
  | none => { record with agent := record.agentAt step, link := record.linkAt step }
  | some task => record.note step task

def after (record : Record) (steps : List Step) : Record :=
  steps.foldl enter record

/-- Where the exchange of versions stands at the end of a record, with what was
queued and told so far. -/
def exchange (record : Record) : Exchange where
  sent := record.agent.versionSent
  received := record.agent.versionReceived
  peer := record.agent.peer
  id := record.link.id
  address := record.link.peerAddress
  queue := record.queued
  events := record.events

end Record

/-- What an agent does in a step is the next task on what it finds. -/
theorem step_eq_perform {record : Record} {step : Step} {task : Task}
    (next : record.task? step = some task) :
    Agent.step step.around (record.agentAt step) (record.linkAt step) =
      some (perform step.around task (record.start step)) := by
  unfold Agent.step
  rw [show nextTask? (record.agentAt step) (record.linkAt step) = some task from next]
  rfl

end PeerOverlay.Agent
