/-!
# Cutting a text at a separator

`pieces` cuts a text at every occurrence of a separator (`split`), `joined` puts pieces together
again.
`joined_pieces` says that nothing is lost, `length_pieces` that there is one piece more than
separators, and `not_mem_of_mem_pieces` that no piece holds the separator. In turn, texts without
the separator are cut just where they were put together (`pieces_of_not_mem`, `pieces_append`).
-/

namespace Scheduling.Text

/-- The pieces of a text between the occurrences of a separator. -/
def pieces (sep : Char) : List Char → List (List Char)
  | [] => [[]]
  | c :: rest =>
    if c = sep then [] :: pieces sep rest
    else match pieces sep rest with
      | [] => [[c]]
      | first :: others => (c :: first) :: others

/-- Pieces with a separator between each two. -/
def joined (sep : Char) : List (List Char) → List Char
  | [] => []
  | [piece] => piece
  | piece :: others => piece ++ sep :: joined sep others

/-- Even an empty text has a piece. -/
theorem pieces_ne_nil (sep : Char) : ∀ s, pieces sep s ≠ []
  | [] => by simp [pieces]
  | c :: rest => by
    unfold pieces
    split
    · simp
    · split <;> simp

/-- There is one piece more than separators. -/
theorem length_pieces (sep : Char) (s : List Char) : (pieces sep s).length = s.count sep + 1 := by
  induction s with
  | nil => simp [pieces]
  | cons c rest ih =>
    unfold pieces
    split
    · next h => simp [h, ih]
    · next h =>
      have hne := pieces_ne_nil sep rest
      split
      · next h' => exact absurd h' hne
      · next first others h' =>
        rw [h'] at ih
        simp only [List.length_cons] at ih ⊢
        rw [List.count_cons_of_ne h]
        omega

/-- The pieces of a text, joined again, are the text. -/
theorem joined_pieces (sep : Char) (s : List Char) : joined sep (pieces sep s) = s := by
  induction s with
  | nil => simp [pieces, joined]
  | cons c rest ih =>
    have hne := pieces_ne_nil sep rest
    unfold pieces
    split
    · next h =>
      cases hp : pieces sep rest with
      | nil => exact absurd hp hne
      | cons first others => rw [hp] at ih; simp [joined, h, ih]
    · cases hp : pieces sep rest with
      | nil => exact absurd hp hne
      | cons first others =>
        rw [hp] at ih
        cases others with
        | nil => simpa [joined] using ih
        | cons second others => simpa [joined] using ih

/-- No piece holds the separator. -/
theorem not_mem_of_mem_pieces (sep : Char) (s : List Char) :
    ∀ piece ∈ pieces sep s, sep ∉ piece := by
  induction s with
  | nil => simp [pieces]
  | cons c rest ih =>
    unfold pieces
    split
    · simpa using ih
    · next h =>
      split
      · simp [Ne.symm h]
      · next first others hp =>
        rw [hp] at ih
        intro piece hmem
        rcases List.mem_cons.1 hmem with rfl | hmem
        · have := ih first (by simp)
          simp [Ne.symm h, this]
        · exact ih piece (by simp [hmem])

/-- A text without the separator is one piece. -/
theorem pieces_of_not_mem {sep : Char} {s : List Char} (h : sep ∉ s) : pieces sep s = [s] := by
  induction s with
  | nil => rfl
  | cons c rest ih =>
    obtain ⟨hc, hrest⟩ := not_or.1 fun hmem => h (List.mem_cons.2 hmem)
    rw [pieces, if_neg (Ne.symm hc), ih hrest]

/-- A text without the separator, up to the separator, is the first piece. -/
theorem pieces_append {sep : Char} {s : List Char} (h : sep ∉ s) (rest : List Char) :
    pieces sep (s ++ sep :: rest) = s :: pieces sep rest := by
  induction s with
  | nil => rw [List.nil_append, pieces, if_pos rfl]
  | cons c s ih =>
    obtain ⟨hc, hs⟩ := not_or.1 fun hmem => h (List.mem_cons.2 hmem)
    rw [List.cons_append, pieces, if_neg (Ne.symm hc), ih hs]

end Scheduling.Text
