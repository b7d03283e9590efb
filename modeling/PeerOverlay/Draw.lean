/-!
# Drawing lots

Random choices are made by a list of numbers, the lots.  Each lot draws one of
the remaining things; when the lots run out, the rest stays in order.  So every
order of the things is the result of some lots, and no lots can lose a thing.
-/

namespace PeerOverlay

/-- The things in the order in which the lots draw them. -/
def draw {α : Type} : List Nat → List α → List α
  | [], things => things
  | _ :: _, [] => []
  | lot :: lots, first :: rest =>
      let things := first :: rest
      let place := lot % things.length
      (things[place]?).toList ++ draw lots (things.eraseIdx place)

/-- A thing in front of all others is a rearrangement of the things. -/
theorem perm_eraseIdx {α : Type} (things : List α) (place : Nat)
    (inside : place < things.length) :
    (things[place] :: things.eraseIdx place).Perm things := by
  induction things generalizing place with
  | nil => simp at inside
  | cons first rest hypothesis =>
      cases place with
      | zero => exact .refl _
      | succ before =>
          have inside : before < rest.length := by simpa using inside
          exact (List.Perm.swap ..).trans ((hypothesis before inside).cons first)

/-- No lots lose or invent a thing. -/
theorem draw_perm {α : Type} (lots : List Nat) (things : List α) :
    (draw lots things).Perm things := by
  induction lots generalizing things with
  | nil => exact .refl _
  | cons lot lots hypothesis =>
      cases things with
      | nil => exact .refl _
      | cons first rest =>
          have inside : lot % (first :: rest).length < (first :: rest).length :=
            Nat.mod_lt _ (by simp)
          simp only [draw, List.getElem?_eq_getElem inside, Option.toList_some,
            List.cons_append, List.nil_append]
          exact ((hypothesis _).cons _).trans (perm_eraseIdx _ _ inside)

/-- Every order of the things is drawn by some lots. -/
theorem exists_draw_eq {α : Type} {order things : List α} (same : order.Perm things) :
    ∃ lots, draw lots things = order := by
  induction order generalizing things with
  | nil => exact ⟨[], same.nil_eq.symm⟩
  | cons chosen others hypothesis =>
      obtain ⟨place, inside, found⟩ :=
        List.getElem_of_mem (same.mem_iff.1 (List.mem_cons_self ..))
      have remaining : others.Perm (things.eraseIdx place) := by
        have restored := (perm_eraseIdx things place inside).symm
        rw [found] at restored
        exact (same.trans restored).cons_inv
      obtain ⟨lots, drawn⟩ := hypothesis remaining
      refine ⟨place :: lots, ?_⟩
      cases things with
      | nil => simp at inside
      | cons first rest =>
          simp only [draw, Nat.mod_eq_of_lt inside, List.getElem?_eq_getElem inside,
            Option.toList_some, found, drawn, List.cons_append, List.nil_append]

/-- Each of the things is drawn first by some lots. -/
theorem exists_draw_eq_cons {α : Type} {thing : α} {things : List α} (member : thing ∈ things) :
    ∃ lots others, draw lots things = thing :: others := by
  obtain ⟨earlier, later, rfl⟩ := List.append_of_mem member
  have rearranged : (thing :: (earlier ++ later)).Perm (earlier ++ thing :: later) :=
    List.perm_middle.symm
  obtain ⟨lots, drawn⟩ := exists_draw_eq rearranged
  exact ⟨lots, _, drawn⟩

/-- One of the things, if there are any. -/
def drawOne? {α : Type} (lots : List Nat) (things : List α) : Option α :=
  (draw lots things).head?

theorem mem_of_drawOne? {α : Type} {lots : List Nat} {things : List α} {thing : α}
    (drawn : drawOne? lots things = some thing) : thing ∈ things :=
  (draw_perm lots things).mem_iff.1 (List.mem_of_mem_head? drawn)

theorem exists_drawOne?_eq {α : Type} {thing : α} {things : List α} (member : thing ∈ things) :
    ∃ lots, drawOne? lots things = some thing := by
  obtain ⟨lots, others, drawn⟩ := exists_draw_eq_cons member
  exact ⟨lots, by rw [drawOne?, drawn, List.head?_cons]⟩

end PeerOverlay
