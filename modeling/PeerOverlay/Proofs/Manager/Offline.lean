import PeerOverlay.Proofs.Manager.AutoConnect
import PeerOverlay.Proofs.Manager.Intake
import PeerOverlay.Proofs.Manager.Transports

/-!
# While the host is offline

When the host goes offline, all links of the manager are closed, and nothing opens one of
them again.  As long as the host is offline, nothing is dialed on request.  But a
connection is opened unasked once the owner asks for that, and a link that comes in the
meantime is let in as at any other time.
-/

namespace PeerOverlay

/-! ## Closed links -/

namespace Links

/-- Whether a link is known and closed. -/
def isClosed (links : Links) (id : LinkId) : Bool :=
  (links.get? id).any Link.closed

variable {links : Links} {id tested : LinkId}

theorem isClosed_iff :
    links.isClosed id = true ↔ ∃ link, links.get? id = some link ∧ link.closed = true :=
  Option.any_eq_true _ _

theorem isClosed_modify {change : Link → Link}
    (stays : ∀ link, link.closed = true → (change link).closed = true)
    (closed : links.isClosed tested = true) :
    Links.isClosed (links.modify id change) tested = true := by
  obtain ⟨link, found, isClosed⟩ := isClosed_iff.1 closed
  apply isClosed_iff.2
  rw [Table.get?_modify, found]
  refine ⟨_, rfl, ?_⟩
  dsimp only
  split
  · exact stays link isClosed
  · exact isClosed

theorem isClosed_close (reason : String) (closed : links.isClosed tested = true) :
    (links.close id reason).isClosed tested = true :=
  isClosed_modify (fun _ _ => rfl) closed

theorem isClosed_close_self (reason : String) (known : (links.get? id).isSome) :
    (links.close id reason).isClosed id = true := by
  obtain ⟨link, found⟩ := Option.isSome_iff_exists.1 known
  apply isClosed_iff.2
  refine ⟨link.close reason, ?_, rfl⟩
  rw [get?_close, found, Option.map_some, if_pos rfl]

theorem isClosed_abandon (closed : links.isClosed tested = true) :
    Links.isClosed (links.modify id Link.abandon) tested = true :=
  isClosed_modify (fun _ isClosed => isClosed) closed

theorem isClosed_closeAll_of_mem {ids : List LinkId} (reason : String) (member : id ∈ ids)
    (known : (links.get? id).isSome) : (links.closeAll ids reason).isClosed id = true := by
  obtain ⟨link, found⟩ := Option.isSome_iff_exists.1 known
  apply isClosed_iff.2
  refine ⟨link.close reason, ?_, rfl⟩
  rw [get?_closeAll, found, Option.map_some, if_pos member]

theorem isClosed_insert {link : Link} (isClosed : link.closed = true)
    (closed : links.isClosed tested = true) :
    Links.isClosed (links.insert id link) tested = true := by
  unfold Links.isClosed
  rw [Table.get?_insert]
  split
  · exact isClosed
  · exact closed

theorem isClosed_send (message : Message) (closed : links.isClosed tested = true) :
    (links.send id message).2.isClosed tested = true := by
  obtain ⟨link, found, isClosed⟩ := isClosed_iff.1 closed
  unfold Links.isClosed
  rw [get?_send]
  split
  · next same =>
      rw [same, found, Option.map_some, Option.any_some]
      exact (congrArg Prod.fst (link.closing_send message)).trans isClosed
  · exact closed

theorem kept_isClosed : Links.Kept fun links => links.isClosed tested = true where
  close := fun _ _ => isClosed_close
  abandon := fun _ _ => isClosed_abandon
  send := fun _ _ => isClosed_send

end Links

namespace Manager

variable {around : Surroundings} {tested : LinkId}

/-! ## Turns keep closed links closed -/

theorem Step.isClosed_turn (step : Step) (manager : Manager)
    (closed : step.links.isClosed tested = true) :
    (step.turn manager).links.isClosed tested = true :=
  Links.kept_isClosed.turn step manager closed

/-! ## What is dialed -/

/-- The address to which a connector was asked to connect. -/
def Effect.dialed? : Effect → Option PeerAddress
  | .dial address _ _ => some address
  | _ => none

/-- The addresses to which connectors were asked to connect, in order. -/
def Turn.dials (turn : Turn) : List PeerAddress :=
  turn.effects.filterMap Effect.dialed?

/-- A part of a reaction dials nothing unless connections are opened unasked. -/
theorem dials_perform {part : Part} {turn : Turn} (idle : turn.manager.autoConnect = false) :
    (part.perform around turn).dials = turn.dials := by
  apply (adds_perform around part turn).filterMap_eq
  intro effect emits
  cases emits with
  | attempt address effect wanted own => simp [wantsConnection, idle] at wanted
  | _ => rfl

theorem dials_follow {control : Control} {turn : Turn} (offline : turn.manager.offline = true)
    (away : control ≠ .setOnline true)
    (idle : (follow around control turn).2.manager.autoConnect = false) :
    (follow around control turn).2.dials = turn.dials := by
  cases control with
  | connect =>
      have on := congrArg Switches.autoConnect (switches_follow around .connect turn)
      exact absurd (idle.symm.trans on) Bool.false_ne_true
  | disconnect reason => rfl
  | setOnline online =>
      cases online with
      | false => rfl
      | true => exact absurd rfl away
  | dial address =>
      have barred : turn.manager.canDial = false := by
        rw [canDial, offline]
        rfl
      rw [snd_follow_dial, barred]
      rfl
  | stop => rfl

/-- While the host is offline, a step after which no connection is opened unasked dials
nothing. -/
theorem Step.dials_eq_nil {step : Step} {manager : Manager} (offline : manager.offline = true)
    (away : step.move.control? ≠ some (.setOnline true))
    (idle : (step.apply manager).autoConnect = false) : (step.turn manager).dials = [] := by
  -- A control is judged by the switch it leaves, as `connect` turns it on and dials at once;
  -- the parts of a reaction leave the switch as it was.
  cases followed : step.move.control? with
  | some control =>
      rw [apply, step.turn_of_control? followed] at idle
      rw [step.turn_of_control? followed]
      refine dials_follow offline ?_ idle
      rintro rfl
      exact away followed
  | none =>
      have idleBefore : manager.autoConnect = false :=
        (congrArg Switches.autoConnect (step.switches_apply_of_none followed manager)).symm.trans
          idle
      have kept : (step.turn manager).manager.switches = manager.switches ∧
          (step.turn manager).dials = [] := by
        apply Step.keeps (P := fun turn =>
          turn.manager.switches = manager.switches ∧ turn.dials = []) step
        · intro link addresses turn same
          exact same
        · rintro part turn _ ⟨same, none⟩
          have idleStill := (congrArg Switches.autoConnect same).trans idleBefore
          exact ⟨(switches_perform part turn).trans same, (dials_perform idleStill).trans none⟩
        · intro control moves
          rw [moves] at followed
          exact absurd followed (Option.some_ne_none control)
        · exact ⟨rfl, rfl⟩
      exact kept.2

/-- Whether the host is offline, and connections are opened unasked only if that was wished
since the last notice of it. -/
structure Switches.Away (wished : Bool) (number : Nat) (switches : Switches) : Prop where
  offline : switches.offline = true
  asked : switches.autoConnect = true → wished = true ∧ number = 0

theorem Switches.Away.follow {wished : Bool} {number : Nat} {switches : Switches}
    (away : Switches.Away wished number switches) {control : Control}
    (stays : control ≠ .setOnline true) :
    Switches.Away (control.wish wished) (control.notices number) (switches.follow control) := by
  cases control with
  | connect => exact ⟨away.offline, fun _ => ⟨rfl, rfl⟩⟩
  | disconnect reason => exact ⟨away.offline, fun on => absurd on Bool.false_ne_true⟩
  | setOnline online =>
      cases online with
      | false => exact ⟨rfl, fun on => absurd on Bool.false_ne_true⟩
      | true => exact absurd rfl stays
  | dial address => exact away
  | stop => exact ⟨away.offline, away.asked⟩

/-! ## Steps with the links that the steps before have left -/

/-- Whether no link was opened again since a turn, and the link that a step hands over, if
it does, is there. -/
structure Step.GoesOn (step : Step) (turn : Turn) : Prop where
  closed : ∀ id, turn.links.isClosed id = true → step.links.isClosed id = true
  handed : ∀ id, step.move.connection? = some id → (step.links.get? id).isSome

/-- Whether every step goes on from the turn before. -/
def GoOn (turn : Turn) : List Step → Prop
  | [] => True
  | step :: rest => step.GoesOn turn ∧ GoOn (step.turn turn.manager) rest

theorem GoOn.goesOn {turn : Turn} {steps earlier : List Step} {step : Step}
    (goOn : GoOn turn steps) (initial : earlier ++ [step] <+: steps) :
    step.GoesOn (turnAfter turn earlier) := by
  induction steps generalizing turn earlier with
  | nil => simp at initial
  | cons first rest hypothesis =>
      cases earlier with
      | nil =>
          obtain ⟨rfl, _⟩ := List.cons_prefix_cons.1 initial
          exact goOn.1
      | cons same others =>
          obtain ⟨rfl, later⟩ := List.cons_prefix_cons.1 initial
          have goesOn := hypothesis goOn.2 later
          exact goesOn

/-! ## Links while the host is offline -/

/-- Whether every link that a manager holds or was handed is closed. -/
def AllClosed (turn : Turn) (handed : List LinkId) : Prop :=
  ∀ id, id ∈ turn.manager.slots.keys ∨ id ∈ handed → turn.links.isClosed id = true

/-- Whether a step hands over an open link that is not refused. -/
def Step.LetsIn (step : Step) (manager : Manager) : Prop :=
  ∃ id link, step.move.connection? = some id ∧ step.links.get? id = some link ∧
    link.closed = false ∧ (manager.finishAttempt link).linkRefusal? link = none

/-- A link that is handed over is closed afterwards, unless it is let in. -/
theorem Step.isClosed_of_not_letsIn {step : Step} {manager : Manager} {id : LinkId}
    (handed : step.move.connection? = some id) (known : (step.links.get? id).isSome)
    (keptOut : ¬ step.LetsIn manager) : (step.turn manager).links.isClosed id = true := by
  obtain ⟨link, found⟩ := Option.isSome_iff_exists.1 known
  cases closed : link.closed with
  | true =>
      apply step.isClosed_turn manager
      rw [Links.isClosed, found]
      exact closed
  | false =>
      rw [step.turn_of_connection? handed, onConnection]
      simp only [Turn.start, found]
      split
      · next refusal _ =>
          exact Links.isClosed_abandon (Links.isClosed_close_self refusal.reason known)
      · next admitted => exact absurd ⟨id, link, handed, found, closed, admitted⟩ keptOut

theorem Step.LetsIn.not_isClosed {step : Step} {manager : Manager} (letsIn : step.LetsIn manager) :
    ∃ id, step.move.connection? = some id ∧ (step.turn manager).links.isClosed id = false := by
  obtain ⟨id, link, handed, found, opened, admitted⟩ := letsIn
  refine ⟨id, handed, ?_⟩
  have links : (step.turn manager).links = step.links := by
    rw [step.turn_of_connection? handed, onConnection]
    simp only [Turn.start, found]
    split
    · next refusal refused =>
        exact absurd (admitted.symm.trans refused) (Option.some_ne_none refusal).symm
    · rfl
  rw [links, Links.isClosed, found]
  exact opened

/-- No step brings a slot but for a link that it hands over. -/
theorem Step.mem_keys_apply {step : Step} {manager : Manager} {id : LinkId}
    (held : id ∈ (step.apply manager).slots.keys) :
    id ∈ manager.slots.keys ∨ step.move.connection? = some id := by
  rw [← Table.contains_iff] at held ⊢
  obtain ⟨slot, found⟩ := Option.isSome_iff_exists.1 held
  cases step.brings manager with
  | nothing fewer => exact .inl (Option.isSome_iff_exists.2 ⟨slot, fewer.slots found⟩)
  | link other link handed known slots counts =>
      rw [slots, Table.get?_insert] at found
      split at found
      · next same => exact .inr (same ▸ handed)
      · exact .inl (Option.isSome_iff_exists.2 ⟨slot, found⟩)
  | peer peer earlier announced was admitted slots counts =>
      rw [slots, Table.get?_insert] at found
      split at found
      · next same => exact .inl (Option.isSome_iff_exists.2 ⟨earlier, same ▸ was⟩)
      · exact .inl (Option.isSome_iff_exists.2 ⟨slot, found⟩)

/-- All links stay closed in a step that goes on and lets none in. -/
theorem Step.allClosed {step : Step} {turn : Turn} {handed : List LinkId}
    (all : AllClosed turn handed) (goesOn : step.GoesOn turn)
    (keptOut : ¬ step.LetsIn turn.manager) :
    AllClosed (step.turn turn.manager) (handed ++ step.move.connection?.toList) := by
  have own {id : LinkId} (own : step.move.connection? = some id) :
      (step.turn turn.manager).links.isClosed id = true :=
    step.isClosed_of_not_letsIn own (goesOn.handed id own) keptOut
  have before {id : LinkId} (before : id ∈ turn.manager.slots.keys ∨ id ∈ handed) :
      (step.turn turn.manager).links.isClosed id = true :=
    step.isClosed_turn turn.manager (goesOn.closed id (all id before))
  rintro id (held | member)
  · rcases Step.mem_keys_apply held with earlier | now
    · exact before (.inl earlier)
    · exact own now
  · rcases List.mem_append.1 member with earlier | now
    · exact before (.inr earlier)
    · exact own (Option.mem_toList.1 now)

theorem allClosed_goOffline {turn : Turn}
    (known : ∀ id ∈ turn.manager.slots.keys, (turn.links.get? id).isSome) :
    AllClosed (goOffline turn) [] := by
  rintro id (held | none)
  · exact Links.isClosed_closeAll_of_mem _ held (known id held)
  · exact absurd none List.not_mem_nil

section Period

variable {turn : Turn} {steps : List Step}

theorem away_run (turn : Turn)
    (away : ∀ step ∈ steps, step.move.control? ≠ some (.setOnline true))
    {earlier : List Step} (initial : earlier <+: steps) :
    Switches.Away (wishAfter (controls earlier)) (noticesAfter (controls earlier))
      (run (goOffline turn).manager earlier).switches := by
  apply run_keeps_wished (P := Switches.Away) initial
  · exact ⟨rfl, fun on => absurd on Bool.false_ne_true⟩
  · rintro earlier step control initial followed switches before
    apply before.follow
    rintro rfl
    exact away step (mem_of_initial initial) followed

theorem allClosed_turnAfter (known : ∀ id ∈ turn.manager.slots.keys, (turn.links.get? id).isSome)
    (goOn : GoOn (goOffline turn) steps)
    (keptOut : ∀ earlier step, earlier ++ [step] <+: steps →
      ¬ step.LetsIn (run (goOffline turn).manager earlier))
    {earlier : List Step} (initial : earlier <+: steps) :
    AllClosed (turnAfter (goOffline turn) earlier) (handedOver earlier) := by
  induction earlier using List.reverseRecOn with
  | nil => exact allClosed_goOffline known
  | append_singleton earlier step hypothesis =>
      have before := hypothesis (prefix_of_initial initial)
      rw [turnAfter_concat, handedOver_concat]
      apply step.allClosed before (goOn.goesOn initial)
      rw [manager_turnAfter]
      exact keptOut earlier step initial

/-- From the notice that the host is offline to the one that it is back, nothing is dialed
before the owner asks again for connections to be opened unasked.  All links that the manager
holds or is handed are closed after every step, if and only if no step hands over an open
link that is not refused. -/
theorem offline_unless_asked_or_letsIn
    (known : ∀ id ∈ turn.manager.slots.keys, (turn.links.get? id).isSome)
    (goOn : GoOn (goOffline turn) steps)
    (away : ∀ step ∈ steps, step.move.control? ≠ some (.setOnline true)) :
    (∀ earlier step, earlier ++ [step] <+: steps →
      (step.turn (run (goOffline turn).manager earlier)).dials ≠ [] →
        wishAfter (controls (earlier ++ [step])) = true ∧
          noticesAfter (controls (earlier ++ [step])) = 0) ∧
      ((∀ earlier, earlier <+: steps →
          AllClosed (turnAfter (goOffline turn) earlier) (handedOver earlier)) ↔
        ∀ earlier step, earlier ++ [step] <+: steps →
          ¬ step.LetsIn (run (goOffline turn).manager earlier)) := by
  refine ⟨?_, ?_, ?_⟩
  · intro earlier step initial dials
    have before := away_run turn away (prefix_of_initial initial)
    have after := away_run turn away initial
    apply after.asked
    rw [run_append]
    apply Classical.byContradiction
    intro idle
    have stays := away step (mem_of_initial initial)
    exact dials (step.dials_eq_nil before.offline stays (Bool.eq_false_iff.2 idle))
  · intro all earlier step initial letsIn
    obtain ⟨id, handed, opened⟩ := letsIn.not_isClosed
    have closed := all (earlier ++ [step]) initial id
    rw [turnAfter_concat, handedOver_concat, manager_turnAfter, handed, opened] at closed
    have member : id ∈ handedOver earlier ++ (some id).toList :=
      List.mem_append_right _ (List.mem_singleton_self id)
    exact Bool.false_ne_true (closed (.inr member))
  · intro keptOut earlier initial
    exact allClosed_turnAfter known goOn keptOut initial

end Period

/-- A manager has taken in one link, and knows a host. -/
def oneLink : Turn :=
  let links : Links :=
    Table.empty.insert 1 (.opened 1 .inbound .direct (some (.ip "2.2.2.2")) none)
  let steps : List Step :=
    [.plain links (.event (.connection 1)),
      .plain links (.event (.addresses 1 [hostAddress "3.3.3.3"]))]
  .start (run (atHost "1.1.1.1") steps) links

/-- While the host is offline a second link is handed over, and then the owner asks for
connections. -/
def whileOffline (second : Link) : List Step :=
  let links : Links := (goOffline oneLink).links.insert 2 second
  [.plain links (.event (.connection 2)), .plain links (.control .connect)]

def secondLink : Link :=
  .opened 2 .inbound .direct (some (.ip "4.4.4.4")) none

/-- If the second link has been closed before, all links are closed. -/
theorem offline_unless_asked_or_letsIn_lateLink :
    (∀ id ∈ oneLink.manager.slots.keys, (oneLink.links.get? id).isSome) ∧
      GoOn (goOffline oneLink) (whileOffline (secondLink.close "late")) ∧
      (∀ step ∈ whileOffline (secondLink.close "late"),
        step.move.control? ≠ some (.setOnline true)) ∧
      oneLink.links.isClosed 1 = false ∧
      AllClosed (turnAfter (goOffline oneLink) (whileOffline (secondLink.close "late"))) [2] := by
  have known : ∀ id ∈ oneLink.manager.slots.keys, (oneLink.links.get? id).isSome := by decide
  have goOn : GoOn (goOffline oneLink) (whileOffline (secondLink.close "late")) := by
    refine ⟨⟨?_, ?_⟩, ⟨?_, ?_⟩, trivial⟩
    · intro id closed
      exact Links.isClosed_insert rfl closed
    · rintro id ⟨⟩
      rfl
    · exact fun id closed => closed
    · rintro id ⟨⟩
  have away : ∀ step ∈ whileOffline (secondLink.close "late"),
      step.move.control? ≠ some (.setOnline true) := by
    simp [whileOffline, Step.plain, Move.control?]
  refine ⟨known, goOn, away, by decide, ?_⟩
  apply (offline_unless_asked_or_letsIn known goOn away).2.2 _ _ (List.prefix_refl _)
  rintro earlier step initial ⟨id, link, handed, found, opened, _⟩
  have member := mem_of_initial initial
  simp only [whileOffline, List.mem_cons, List.not_mem_nil, or_false] at member
  rcases member with rfl | rfl
  · obtain rfl := Option.some.inj handed
    have same : some (secondLink.close "late") = some link := found
    rw [← Option.some.inj same] at opened
    exact absurd opened (by decide)
  · exact absurd handed (by simp [Step.plain, Move.connection?])

/-- An open one is let in, and then a host is dialed. -/
theorem dials_and_letsIn_offline :
    (turnAfter (goOffline oneLink) (whileOffline secondLink)).manager.offline = true ∧
      (turnAfter (goOffline oneLink) (whileOffline secondLink)).dials =
        [hostAddress "3.3.3.3"] ∧
      (turnAfter (goOffline oneLink) (whileOffline secondLink)).links.isClosed 2 = false := by
  decide +kernel

end Manager

end PeerOverlay
