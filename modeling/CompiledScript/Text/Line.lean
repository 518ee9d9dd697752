/-!
# Lines

A text is cut into lines behind its line breaks. A break at the very end begins no further line.
Which characters break a line is a parameter: line feeds alone, or every character that starts a new
line. In the latter case a carriage return and a line feed that follow each other are one break.
-/

namespace CompiledScript.Text

/-- A line with one more character in front, which begins a line if there is none. -/
def extendFirst (c : Char) : List (List Char) → List (List Char)
  | [] => [[c]]
  | first :: rest => (c :: first) :: rest

/-- The lines of a text that is cut at some characters, to which line feeds belong. A carriage
return in front of a line feed leaves the cut to it. -/
def linesAt (breaks : Char → Bool) : List Char → List (List Char)
  | [] => []
  | c :: rest =>
    if breaks c then
      if c = '\r' ∧ rest.head? = some '\n' then linesAt breaks rest
      else [] :: linesAt breaks rest
    else extendFirst c (linesAt breaks rest)

def isFeed (c : Char) : Bool := c = '\n'

/-- Whether a character starts a new line. -/
def isBreak (c : Char) : Bool :=
  let n := c.toNat
  (0x0A ≤ n && n ≤ 0x0D) || (0x1C ≤ n && n ≤ 0x1E) || n = 0x85 || n = 0x2028 || n = 0x2029

def feedLines : List Char → List (List Char) := linesAt isFeed

/-- The lines of a text that is cut at every line break. -/
def lines : List Char → List (List Char) := linesAt isBreak

/-- A text that ends with a line feed. -/
def terminated (text : List Char) : List Char :=
  if text.getLast? = some '\n' then text else text ++ ['\n']

/-- A text in which a line feed takes the place of each carriage return, and of a carriage return
with a line feed. -/
def unifyBreaks : List Char → List Char
  | [] => []
  | '\r' :: '\n' :: rest => '\n' :: unifyBreaks rest
  | c :: rest => (if c = '\r' then '\n' else c) :: unifyBreaks rest

end CompiledScript.Text
