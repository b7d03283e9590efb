import PeerOverlay.AddressBook.Book

/-!
# Ways to relayed peers

A book sends signals to a relayed peer through the link of the peer itself, if it is connected
through one that is open, and else through the first open link by which it was heard of.
-/

namespace PeerOverlay.AddressBook

variable {book : AddressBook} {isOpen : LinkId → Bool} {signalId : SignalId}

/-- The routes to a relayed peer, nearest first. -/
def routesTo (book : AddressBook) (signalId : SignalId) : List Route :=
  (book.routes.get? signalId).getD []

/-- Signals to one peer that come back through a link take away nothing but the routes through
that link to that peer. -/
theorem routesTo_markUnroutable (book : AddressBook) (link : LinkId) (signalId tested : SignalId) :
    (book.markUnroutable link signalId).routesTo tested =
      if signalId = tested then (book.routesTo tested).filter (·.link ≠ link)
      else book.routesTo tested := by
  unfold markUnroutable routesTo
  split
  · next unknown =>
      split
      · next same =>
          rw [← same, unknown]
          rfl
      · rfl
  · next routes known =>
      dsimp only
      split
      · next none =>
          rw [Table.get?_erase]
          split
          · next same =>
              rw [← same, known]
              exact (List.isEmpty_iff.1 none).symm
          · rfl
      · rw [Table.get?_insert]
        split
        · next same =>
            rw [← same, known]
            rfl
        · rfl

theorem routesTo_congr {before after : AddressBook} (same : after.routes = before.routes)
    (tested : SignalId) : after.routesTo tested = before.routesTo tested := by
  unfold routesTo
  rw [same]

/-- The open links through which signals reach a relayed peer, the one to be used first in
front. -/
def ways (book : AddressBook) (isOpen : LinkId → Bool) (signalId : SignalId) : List LinkId :=
  (book.directRoute? isOpen signalId).toList ++
    ((book.routesTo signalId).filter fun route => isOpen route.link).map Route.link

theorem lookup?_eq_head?_ways (book : AddressBook) (isOpen : LinkId → Bool)
    (signalId : SignalId) : book.lookup? isOpen signalId = (book.ways isOpen signalId).head? := by
  unfold lookup? ways
  cases book.directRoute? isOpen signalId with
  | some direct => rfl
  | none =>
      show book.openRoute? isOpen signalId = _
      rw [Option.toList_none, List.nil_append, List.head?_map, List.head?_filter]
      rfl

end PeerOverlay.AddressBook
