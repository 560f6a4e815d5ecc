import PathStudio.Text.Digit
import PathStudio.Text.Character
import PathStudio.Text.Surrogate

/-!
# Quoted text

Messages show a text between quotes: single ones, or double ones if the text
has a single quote and no double one. The quote in use, the backslash and all
characters that cannot be printed are escaped.
-/

namespace PathStudio.Text

/-- One character of a quoted text. -/
def quoteChar (mark c : Char) : List Char :=
  if c = mark || c = '\\' then ['\\', c]
  else if c = '\t' then ['\\', 't']
  else if c = '\n' then ['\\', 'n']
  else if c = '\r' then ['\\', 'r']
  else if isPrintable c then [c]
  else
    let code := (surrogate? c).getD c.toNat
    if code ≤ 0xFF then '\\' :: 'x' :: hexDigits 2 code
    else if code ≤ 0xFFFF then '\\' :: 'u' :: hexDigits 4 code
    else '\\' :: 'U' :: hexDigits 8 code

/-- The quote that a text is shown between. -/
def quoteMark (s : List Char) : Char :=
  if s.contains '\'' && !s.contains '"' then '"' else '\''

/-- A text as messages show it. -/
def quoted (s : List Char) : List Char :=
  let mark := quoteMark s
  mark :: (s.flatMap (quoteChar mark) ++ [mark])

end PathStudio.Text
