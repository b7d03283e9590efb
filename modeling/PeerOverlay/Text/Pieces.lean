/-!
# Cutting a text at a separator

A text is a list of characters.  `pieces` cuts it at every separator and keeps
the empty pieces, so gluing the pieces back together with the separator gives
the text again (`gluePieces`).
-/

namespace PeerOverlay.Text

/-- The pieces between the separators of a text.  There is always at least one
piece, and a text without a separator is its own only piece. -/
def pieces (separator : Char) : List Char → List (List Char)
  | [] => [[]]
  | head :: rest =>
      if head = separator then
        [] :: pieces separator rest
      else
        match pieces separator rest with
        | [] => [[head]]
        | first :: others => (head :: first) :: others

/-- The pieces with one separator between neighbours. -/
def glue (separator : Char) (parts : List (List Char)) : List Char :=
  [separator].intercalate parts

/-- The part before and the part after the last separator, if there is one. -/
def cutAtLast? (separator : Char) : List Char → Option (List Char × List Char)
  | [] => none
  | head :: rest =>
      match cutAtLast? separator rest with
      | some (before, after) => some (head :: before, after)
      | none => if head = separator then some ([], rest) else none

/-- The part before and the part after the first doubled separator. -/
def cutAtDouble? (separator : Char) :
    List Char → Option (List Char × List Char)
  | first :: second :: rest =>
      if first = separator ∧ second = separator then
        some ([], rest)
      else
        (cutAtDouble? separator (second :: rest)).map
          fun (before, after) => (first :: before, after)
  | _ => none

theorem pieces_ne_nil (separator : Char) (text : List Char) :
    pieces separator text ≠ [] := by
  cases text with
  | nil => simp [pieces]
  | cons head rest =>
      simp only [pieces]
      split
      · simp
      · split <;> simp

/-- Gluing the pieces of a text back together gives the text. -/
theorem gluePieces (separator : Char) (text : List Char) :
    glue separator (pieces separator text) = text := by
  induction text with
  | nil => rfl
  | cons head rest hypothesis =>
      have nonempty := pieces_ne_nil separator rest
      revert hypothesis nonempty
      simp only [pieces]
      cases pieces separator rest with
      | nil => intro _ nonempty; exact absurd rfl nonempty
      | cons first others =>
          intro hypothesis _
          split
          · next same =>
              rw [← hypothesis, same]
              cases others <;> simp [glue, List.intercalate]
          · rw [← hypothesis]
            cases others <;> simp [glue, List.intercalate]

end PeerOverlay.Text
