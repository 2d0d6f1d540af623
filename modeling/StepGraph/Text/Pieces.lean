/-!
# Pieces of a text

A text falls into pieces at the characters that separate. There is always a first piece, and no
piece holds a separator.
-/
namespace StepGraph.Text

/-- The pieces of a text between its separators. -/
def pieces (separates : Char → Bool) : List Char → List (List Char)
  | [] => [[]]
  | character :: rest =>
    if separates character then [] :: pieces separates rest
    else
      match pieces separates rest with
      | [] => [[character]]
      | piece :: others => (character :: piece) :: others

/-- A text has a first piece. -/
theorem pieces_ne_nil (separates : Char → Bool) (text : List Char) :
    pieces separates text ≠ [] := by
  cases text with
  | nil => exact List.cons_ne_nil _ _
  | cons character rest =>
    simp only [pieces]
    split
    · exact List.cons_ne_nil _ _
    · split <;> exact List.cons_ne_nil _ _

/-- No piece holds a separator. -/
theorem separates_of_mem_pieces {separates : Char → Bool} {text piece : List Char}
    {character : Char} (member : piece ∈ pieces separates text) (inside : character ∈ piece) :
    separates character = false := by
  induction text generalizing piece with
  | nil =>
    obtain rfl := List.mem_singleton.mp member
    cases inside
  | cons first rest ih =>
    simp only [pieces] at member
    split at member
    · rcases List.mem_cons.mp member with rfl | later
      · cases inside
      · exact ih later inside
    · rename_i ordinary
      have plain : separates first = false := by simpa using ordinary
      split at member
      · obtain rfl := List.mem_singleton.mp member
        obtain rfl := List.mem_singleton.mp inside
        exact plain
      · rename_i head others found
        rcases List.mem_cons.mp member with rfl | later
        · rcases List.mem_cons.mp inside with rfl | tail
          · exact plain
          · exact ih (found ▸ List.mem_cons_self) tail
        · exact ih (found ▸ List.mem_cons_of_mem _ later) inside

/-- The first piece of a text stands at its beginning, and the others stand in it. -/
theorem isPrefix_and_isInfix_of_pieces {separates : Char → Bool} {text first : List Char}
    {others : List (List Char)} (cut : pieces separates text = first :: others) :
    first <+: text ∧ ∀ piece ∈ others, piece <:+: text := by
  induction text generalizing first others with
  | nil =>
    obtain ⟨rfl, rfl⟩ := List.cons.inj cut
    exact ⟨List.nil_prefix, nofun⟩
  | cons character rest ih =>
    obtain ⟨next, later, cut_rest⟩ := List.exists_cons_of_ne_nil (pieces_ne_nil separates rest)
    obtain ⟨begins, inside⟩ := ih cut_rest
    have after (piece : List Char) (within : piece <:+: rest) : piece <:+: character :: rest :=
      within.trans (List.suffix_cons character rest).isInfix
    rw [pieces, cut_rest] at cut
    split at cut
    · obtain ⟨rfl, rfl⟩ := List.cons.inj cut
      refine ⟨List.nil_prefix, List.forall_mem_cons.mpr ⟨after next begins.isInfix, ?_⟩⟩
      exact fun piece member => after piece (inside piece member)
    · obtain ⟨rfl, rfl⟩ := List.cons.inj cut
      exact ⟨(List.prefix_cons_inj character).mpr begins,
        fun piece member => after piece (inside piece member)⟩

/-- Every piece of a text stands in it. -/
theorem isInfix_of_mem_pieces {separates : Char → Bool} {text piece : List Char}
    (member : piece ∈ pieces separates text) : piece <:+: text := by
  obtain ⟨first, others, cut⟩ := List.exists_cons_of_ne_nil (pieces_ne_nil separates text)
  obtain ⟨begins, inside⟩ := isPrefix_and_isInfix_of_pieces cut
  rcases List.mem_cons.mp (cut ▸ member) with rfl | later
  · exact begins.isInfix
  · exact inside piece later

/-- The pieces of a text put together are the text without its separators. -/
theorem flatten_pieces (separates : Char → Bool) (text : List Char) :
    (pieces separates text).flatten = text.filter fun character => !separates character := by
  induction text with
  | nil => rfl
  | cons character rest ih =>
    rw [List.filter_cons, ← ih, pieces]
    cases separates character with
    | true => rfl
    | false =>
      obtain ⟨piece, others, cut⟩ := List.exists_cons_of_ne_nil (pieces_ne_nil separates rest)
      rw [cut]
      rfl

/-- A text is cut in two at each of its separators, and its pieces are those of both parts. -/
theorem pieces_append {separates : Char → Bool} {separator : Char}
    (ends : separates separator = true) (left right : List Char) :
    pieces separates (left ++ separator :: right) =
      pieces separates left ++ pieces separates right := by
  induction left with
  | nil =>
    show pieces separates (separator :: right) = [] :: pieces separates right
    rw [pieces, if_pos ends]
  | cons character rest ih =>
    obtain ⟨piece, others, cut⟩ := List.exists_cons_of_ne_nil (pieces_ne_nil separates rest)
    rw [List.cons_append, pieces, pieces, ih, cut]
    split <;> rfl

/-- A text without separators is one piece. -/
theorem pieces_of_plain {separates : Char → Bool} {text : List Char}
    (plain : ∀ character ∈ text, separates character = false) : pieces separates text = [text] := by
  induction text with
  | nil => rfl
  | cons character rest ih =>
    obtain ⟨here, later⟩ := List.forall_mem_cons.mp plain
    rw [pieces, here, ih later]
    rfl

end StepGraph.Text
