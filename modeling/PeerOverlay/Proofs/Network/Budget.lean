import PeerOverlay.Proofs.Manager.Signals

/-!
# What signals are worth

Signals are given a worth, and handling one costs some of it.  What a manager
sends for a signal is worth no more than what was left of it.
-/

namespace PeerOverlay

open Manager (Part Follows SentFor Hushed)

def Event.signal? : Event → Option Signal
  | .signal _ said => some said
  | _ => none

/-- What signals are worth in a network in which none starts with more than some number
of hops. -/
structure Budget (largest : Nat) where
  /-- The worth of a signal that waits somewhere. -/
  waiting : Signal → Nat
  /-- The worth of a signal that was handled and is to be routed. -/
  routed : Signal → Nat
  cost : Nat
  affordable : ∀ signal, cost ≤ waiting signal
  taken : ∀ signal, signal.ttl.toNat ≤ largest → routed signal + cost ≤ waiting signal
  followed : ∀ ttlInitial signal sent, ttlInitial.toNat ≤ largest →
    Follows ttlInitial signal sent → waiting sent ≤ routed signal

namespace Budget

/-! ## Two budgets -/

/-- Every signal is worth the same, and handling it is free. -/
def single (largest : Nat) : Budget largest where
  waiting := fun _ => 1
  routed := fun _ => 1
  cost := 0
  affordable := fun _ => Nat.zero_le 1
  taken := fun _ _ => Nat.le_refl 1
  followed := fun _ _ _ _ _ => Nat.le_refl 1

/-- The number of hops that a signal may cause once it is routed: its own, and those of
an answer if it is plain. -/
def hopsLeft (largest : Nat) (signal : Signal) : Nat :=
  signal.ttl.toNat + if signal.isPlain then largest + 1 else 0

theorem hopsLeft_followed {largest : Nat} {ttlInitial : UInt8} {signal sent : Signal}
    (fits : ttlInitial.toNat ≤ largest) (follows : Follows ttlInitial signal sent) :
    hopsLeft largest sent + 1 ≤ hopsLeft largest signal := by
  cases follows with
  | onward left =>
      have less := Signal.toNat_ttl_sub_one left
      show (signal.ttl - 1).toNat + (if signal.isPlain then largest + 1 else 0) + 1 ≤ _
      unfold hopsLeft
      omega
  | answer plain flags flagged =>
      -- The answer has all its hops before it, but being flagged it is never answered.
      have answer : (signal.reply ttlInitial flags).isPlain = false := by
        simp [Signal.isPlain, Signal.reply, flagged]
      unfold hopsLeft
      rw [answer, if_neg Bool.false_ne_true, if_pos plain]
      show ttlInitial.toNat + 0 + 1 ≤ _
      omega

/-- A signal is worth the number of times that it, and what is sent for it, can be
handled.  An excessive one is not even routed. -/
def handlings (largest : Nat) : Budget largest where
  waiting := fun signal =>
    if signal.ttl.toNat ≤ largest then hopsLeft largest signal + 1 else 1
  routed := hopsLeft largest
  cost := 1
  affordable := by
    intro signal
    split <;> omega
  taken := by
    intro signal moderate
    simp only [moderate, if_true, Nat.le_refl]
  followed := by
    intro ttlInitial signal sent fits follows
    have less := hopsLeft_followed fits follows
    split <;> omega

theorem waiting_handlings_le (largest : Nat) (signal : Signal) :
    (handlings largest).waiting signal ≤ 2 * largest + 2 := by
  show (if signal.ttl.toNat ≤ largest then hopsLeft largest signal + 1 else 1) ≤ _
  split
  · next moderate =>
      unfold hopsLeft
      split <;> omega
  · omega

/-! ## The worth of what waits -/

/-- The worth of the signals that some items carry. -/
def worth {α : Type} (measure : Signal → Nat) (signal? : α → Option Signal)
    (items : List α) : Nat :=
  items.foldr (fun item sum => (signal? item).elim 0 measure + sum) 0

section Worth

variable {α : Type} (measure : Signal → Nat) (signal? : α → Option Signal)

@[simp]
theorem worth_nil : worth measure signal? [] = 0 := rfl

@[simp]
theorem worth_cons (item : α) (others : List α) :
    worth measure signal? (item :: others) =
      (signal? item).elim 0 measure + worth measure signal? others := rfl

theorem worth_append (items later : List α) :
    worth measure signal? (items ++ later) =
      worth measure signal? items + worth measure signal? later := by
  induction items with
  | nil => exact (Nat.zero_add _).symm
  | cons item others hypothesis =>
      rw [List.cons_append, worth_cons, worth_cons, hypothesis, Nat.add_assoc]

theorem worth_singleton (item : α) :
    worth measure signal? [item] = (signal? item).elim 0 measure := by
  rw [worth_cons, worth_nil, Nat.add_zero]

theorem worth_singleton_of_none {item : α} (mute : signal? item = none) :
    worth measure signal? [item] = 0 := by
  rw [worth_singleton, mute, Option.elim_none]

theorem worth_filterMap (items : List α) :
    worth measure some (items.filterMap signal?) = worth measure signal? items := by
  induction items with
  | nil => rfl
  | cons item others hypothesis =>
      rw [List.filterMap_cons, worth_cons, ← hypothesis]
      cases signal? item with
      | none => exact (Nat.zero_add _).symm
      | some signal => rfl

theorem worth_flatMap {κ : Type} (table : Table κ α) (signals : α → List Signal) :
    worth measure some (table.values.flatMap signals) =
      table.total fun _ value => worth measure some (signals value) := by
  unfold Table.values Table.total
  induction table.rows with
  | nil => rfl
  | cons row rest hypothesis =>
      rw [List.map_cons, List.flatMap_cons, worth_append, hypothesis, Table.addRows_cons]

end Worth

theorem worth_perm (measure : Signal → Nat) {signals others : List Signal}
    (same : signals.Perm others) : worth measure some signals = worth measure some others := by
  apply same.foldr_eq'
  intro first _ second _ sum
  omega

theorem worth_one (signals : List Signal) : worth (fun _ => 1) some signals = signals.length := by
  induction signals with
  | nil => rfl
  | cons signal others hypothesis =>
      rw [worth_cons, hypothesis, List.length_cons, Nat.add_comm]
      rfl

variable {largest : Nat} (budget : Budget largest)

/-- The worth of messages. -/
def queued (messages : List Message) : Nat :=
  worth budget.waiting Message.signal? messages

/-- The worth of events. -/
def told (events : List Event) : Nat :=
  worth budget.waiting Event.signal? events

/-- The worth of what is left of a reaction. -/
def planned (parts : List Part) : Nat :=
  worth budget.routed Part.routed? parts

def link (link : Link) : Nat :=
  budget.queued link.outbound + budget.queued link.inbound

def links (links : Links) : Nat :=
  links.total fun _ link => budget.link link

/-! ## What becomes of the worth of links -/

theorem link_abandon_le (link : Link) : budget.link link.abandon ≤ budget.link link :=
  Nat.add_le_add_left (Nat.zero_le _) _

theorem links_close (links : Links) (id : LinkId) (reason : String) :
    budget.links (links.close id reason) ≤ budget.links links :=
  Table.total_modify_le fun _ => Nat.le_refl _

theorem links_abandon (links : Links) (id : LinkId) :
    budget.links (links.modify id Link.abandon) ≤ budget.links links :=
  Table.total_modify_le fun link => budget.link_abandon_le link

theorem links_closeAll (links : Links) (ids : List LinkId) (reason : String) :
    budget.links (links.closeAll ids reason) ≤ budget.links links := by
  induction ids generalizing links with
  | nil => exact Nat.le_refl _
  | cons id others hypothesis =>
      exact Nat.le_trans (hypothesis (links.close id reason)) (budget.links_close links id reason)

theorem links_hushed {before after : Links} (hushed : Hushed before after) :
    budget.links after ≤ budget.links before := by
  cases hushed with
  | kept same => exact Nat.le_of_eq (congrArg budget.links same)
  | closed id reason same =>
      rw [same]
      exact budget.links_close before id reason
  | refused id reason same =>
      rw [same]
      exact Nat.le_trans (budget.links_abandon _ id) (budget.links_close before id reason)

theorem link_send_le (link : Link) (message : Message) :
    budget.link (link.send message).2 ≤ budget.link link + budget.queued [message] := by
  unfold Link.send
  split
  · show budget.queued (link.outbound ++ [message]) + budget.queued link.inbound ≤ _
    unfold Budget.link queued
    rw [worth_append]
    omega
  · exact Nat.le_add_right _ _

theorem links_send_le (links : Links) (id : LinkId) (message : Message) :
    budget.links (links.send id message).2 ≤ budget.links links + budget.queued [message] := by
  unfold Links.send
  cases found : links.get? id with
  | none => exact Nat.le_add_right _ _
  | some link =>
      have balance := Table.total_insert links (fun _ link => budget.link link) id
        (link.send message).2
      have sent := budget.link_send_le link message
      rw [found, Table.portion_some] at balance
      show (links.insert id (link.send message).2).total _ ≤ _
      unfold Budget.links
      omega

theorem links_sentFor {ttlInitial : UInt8} {signal : Signal} {before after : Links}
    (fits : ttlInitial.toNat ≤ largest) (sentFor : SentFor ttlInitial signal before after) :
    budget.links after ≤ budget.links before + budget.routed signal := by
  cases sentFor with
  | nothing same =>
      rw [same]
      exact Nat.le_add_right _ _
  | one id sent follows same =>
      have less := budget.followed ttlInitial signal sent fits follows
      have balance := budget.links_send_le before id (.signal sent)
      have single : budget.queued [.signal sent] = budget.waiting sent :=
        worth_singleton _ _ _
      rw [same]
      omega

end Budget

/-! ## Links in order -/

/-- Whether every link is kept under its own number. -/
def Links.InOrder (links : Links) : Prop :=
  ∀ id link, links.get? id = some link → link.id = id

namespace Links.InOrder

variable {links before after : Links}

theorem modify (inOrder : links.InOrder) (id : LinkId) {change : Link → Link}
    (kept : ∀ link, (change link).id = link.id) : Links.InOrder (links.modify id change) := by
  intro tested link found
  rw [Table.get?_modify] at found
  obtain ⟨old, stored, same⟩ := Option.map_eq_some_iff.1 found
  have own := inOrder tested old stored
  rw [← same]
  split
  · rw [kept, own]
  · exact own

theorem insert (inOrder : links.InOrder) {id : LinkId} {link : Link} (own : link.id = id) :
    Links.InOrder (links.insert id link) := by
  intro tested known found
  rw [Table.get?_insert] at found
  split at found
  · next same =>
      rw [← Option.some.inj found, own, same]
  · exact inOrder tested known found

theorem close (inOrder : links.InOrder) (id : LinkId) (reason : String) :
    (links.close id reason).InOrder :=
  inOrder.modify id fun _ => rfl

theorem closeAll (inOrder : links.InOrder) (ids : List LinkId) (reason : String) :
    (links.closeAll ids reason).InOrder := by
  induction ids generalizing links with
  | nil => exact inOrder
  | cons id others hypothesis => exact hypothesis (inOrder.close id reason)

theorem hushed (inOrder : before.InOrder) (hushed : Hushed before after) : after.InOrder := by
  cases hushed with
  | kept same => rwa [same]
  | closed id reason same =>
      rw [same]
      exact inOrder.close id reason
  | refused id reason same =>
      rw [same]
      exact (inOrder.close id reason).modify id fun _ => rfl

theorem sentFor {ttlInitial : UInt8} {signal : Signal} (inOrder : before.InOrder)
    (sentFor : SentFor ttlInitial signal before after) : after.InOrder := by
  cases sentFor with
  | nothing same => rwa [same]
  | one id sent follows same =>
      rw [same]
      unfold Links.send
      split
      · exact inOrder
      · next link found =>
          refine inOrder.insert ?_
          have own := inOrder id link found
          unfold Link.send
          split <;> exact own

theorem perform {turn : Manager.Turn} (inOrder : turn.links.InOrder)
    (around : Manager.Surroundings) (part : Part) :
    (part.perform around turn).links.InOrder := by
  cases part with
  | route link signal => exact inOrder.sentFor (Manager.sentFor_onSignal around link signal turn)
  | _ => exact inOrder.hushed (Manager.hushed_perform rfl turn)

end Links.InOrder

end PeerOverlay
