/-!
# Blank characters, lines and trimming

A character is blank when it has the Unicode property `White_Space`. Lines end at a line feed; a
carriage return before it is blank and goes with the trimming.
-/
namespace Scriptorium.Text

/-- Whether a character has the property `White_Space`. -/
def isBlank (c : Char) : Bool :=
  let n := c.toNat
  (0x9 ≤ n && n ≤ 0xD) || n == 0x20 || n == 0x85 || n == 0xA0 || n == 0x1680 ||
    (0x2000 ≤ n && n ≤ 0x200A) || n == 0x2028 || n == 0x2029 || n == 0x202F || n == 0x205F || n == 0x3000

/-- Drops the blanks in front. -/
def trimStart (s : List Char) : List Char := s.dropWhile isBlank

/-- Drops the blanks at both ends. -/
def trim (s : List Char) : List Char := (trimStart (trimStart s).reverse).reverse

/-- The pieces of a text between the occurrences of a separator: one more than there are of it. -/
def splitAt (sep : Char) (s : List Char) : List (List Char) :=
  go [] [] s
where
  /-- `piece` and `done` hold what was read so far, last first. -/
  go (piece : List Char) (done : List (List Char)) : List Char → List (List Char)
    | [] => (piece.reverse :: done).reverse
    | c :: rest => if c = sep then go [] (piece.reverse :: done) rest else go (c :: piece) done rest

section
variable {sep : Char}

private theorem splitAt_go (s piece : List Char) (done : List (List Char)) :
    splitAt.go sep piece done s = done.reverse ++ s.splitOnPPrepend (· == sep) piece := by
  induction s generalizing piece done with
  | nil => simp [splitAt.go, List.splitOnPPrepend]
  | cons c s ih =>
    rw [splitAt.go, List.splitOnPPrepend]
    by_cases here : c = sep
    · simp [here, ih]
    · simp [here, ih]

/-- The pieces are those of the library's splitting, which reads the text in the same way. -/
theorem splitAt_eq_splitOn (s : List Char) : splitAt sep s = s.splitOn sep := splitAt_go s [] []

private theorem not_mem_of_mem_go {s piece : List Char} {done : List (List Char)} (clear : sep ∉ piece)
    (clearDone : ∀ part ∈ done, sep ∉ part) : ∀ part ∈ splitAt.go sep piece done s, sep ∉ part := by
  induction s generalizing piece done with
  | nil =>
    intro part among
    rw [splitAt.go, List.mem_reverse, List.mem_cons] at among
    rcases among with rfl | among
    · rwa [List.mem_reverse]
    · exact clearDone part among
  | cons c s ih =>
    rw [splitAt.go]
    split
    · refine ih List.not_mem_nil ?_
      intro part among
      rcases List.mem_cons.mp among with rfl | among
      · rwa [List.mem_reverse]
      · exact clearDone part among
    · rename_i other
      refine ih ?_ clearDone
      intro among
      rcases List.mem_cons.mp among with rfl | among
      · exact other rfl
      · exact clear among

theorem not_mem_of_mem_splitAt {s part : List Char} (among : part ∈ splitAt sep s) : sep ∉ part :=
  not_mem_of_mem_go List.not_mem_nil (fun _ none => absurd none List.not_mem_nil) part among

end

/-- The lines of a text. The last line needs no line feed, and no line follows the last line feed. -/
def lines (s : List Char) : List (List Char) :=
  let pieces := splitAt '\n' s
  if pieces.getLast? = some [] then pieces.dropLast else pieces

/-- Compares two texts without regard to the case of ASCII letters. -/
def equalsIgnoringCase (a b : List Char) : Bool :=
  a.map Char.toLower == b.map Char.toLower

/-- Whether a text ends with a given ending, without regard to the case of ASCII letters. -/
def endsIgnoringCase (ending s : List Char) : Bool :=
  (ending.map Char.toLower).isSuffixOf (s.map Char.toLower)

/-- A character of a word: an ASCII letter, a digit or an underscore. -/
def isWordChar (c : Char) : Bool := c.isAlphanum || c == '_'

end Scriptorium.Text
