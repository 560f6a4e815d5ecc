/-!
# Lines

Three ways to see lines in a text: split at line feeds only, split at every
character that ends a line, and joined with a line feed after each line.
-/

namespace PathStudio.Text

/-- The pieces of a text between line feeds; a text without one is a single piece. -/
def splitLines : List Char → List (List Char)
  | [] => [[]]
  | '\n' :: rest => [] :: splitLines rest
  | c :: rest =>
    match splitLines rest with
    | [] => [[c]]
    | line :: more => (c :: line) :: more

/-- The characters that end a line. -/
def isLineEnd (c : Char) : Bool :=
  let n := c.toNat
  (10 ≤ n && n ≤ 13) || (28 ≤ n && n ≤ 30) || n == 0x85 || n == 0x2028 || n == 0x2029

/-- Reads lines that any line end closes; `begun` tells whether the last one holds anything. -/
def linesFrom : (begun : Bool) → (line : List Char) → List Char → List (List Char)
  | begun, line, [] => if begun then [line.reverse] else []
  | _, line, '\r' :: '\n' :: rest => line.reverse :: linesFrom false [] rest
  | _, line, c :: rest =>
    if isLineEnd c then line.reverse :: linesFrom false [] rest
    else linesFrom true (c :: line) rest

/-- The lines of a text, each closed by any line end; the last one may be left open. -/
def lines (s : List Char) : List (List Char) := linesFrom false [] s

/-- The text of lines, each closed by a line feed. -/
def unlines (ls : List (List Char)) : List Char := ls.flatMap (· ++ ['\n'])

/-- Lines with a line feed between neighbours. -/
def joinLines (ls : List (List Char)) : List Char := List.intercalate ['\n'] ls

/-- A text with every carriage return, alone or before a line feed, read as a line feed. -/
def normalizeLineEnds : List Char → List Char
  | [] => []
  | '\r' :: '\n' :: rest => '\n' :: normalizeLineEnds rest
  | '\r' :: rest => '\n' :: normalizeLineEnds rest
  | c :: rest => c :: normalizeLineEnds rest

@[simp] theorem unlines_nil : unlines [] = [] := rfl

@[simp] theorem unlines_cons (l : List Char) (ls : List (List Char)) :
    unlines (l :: ls) = l ++ '\n' :: unlines ls := by
  simp [unlines]

@[simp] theorem unlines_append (a b : List (List Char)) :
    unlines (a ++ b) = unlines a ++ unlines b := by
  simp [unlines]

end PathStudio.Text
