/-!
Lines of a text. A line ends with `'\n'`.

`pieces` keeps the line ends, so that joining the pieces gives the text back; `splitLines` drops
them and counts the text after the last one, even if it is empty.
-/

namespace JavaOutline.Text

/-- The lines of a text with their ends. No piece is empty, and only the last one can lack its
end. -/
def pieces : List Char → List (List Char)
  | [] => []
  | c :: rest =>
      if c = '\n' then [c] :: pieces rest
      else
        match pieces rest with
        | [] => [[c]]
        | line :: lines => (c :: line) :: lines

/-- The stretches between the line ends of a text. There is always at least one. -/
def splitLines : List Char → List (List Char)
  | [] => [[]]
  | c :: rest =>
      if c = '\n' then [] :: splitLines rest
      else
        match splitLines rest with
        | [] => [[c]]
        | line :: lines => (c :: line) :: lines

end JavaOutline.Text
