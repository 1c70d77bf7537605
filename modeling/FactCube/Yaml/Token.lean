/-!
# YAML tokens

The tokens of a YAML text. Indentation is made explicit: the start and the end of a block collection
are tokens of their own, and a key is marked before the text of the key.
-/

namespace FactCube.Yaml

/-- A token of a YAML text. -/
inductive Token
  | directive
  | documentStart
  | documentEnd
  | blockSequenceStart
  | blockMappingStart
  | blockEnd
  | blockEntry
  | flowSequenceStart
  | flowSequenceEnd
  | flowMappingStart
  | flowMappingEnd
  | flowEntry
  | key
  | value
  /-- A scalar, and whether it stands without quotes and block marks. -/
  | scalar (text : String) (plain : Bool)
deriving DecidableEq, Repr

/-! ## Characters -/

/-- Whether a character may stand in a YAML text. -/
def isAllowed (c : Char) : Bool :=
  let n := c.toNat
  n == 0x09 || n == 0x0A || n == 0x0D || (0x20 ≤ n && n ≤ 0x7E) || n == 0x85 ||
    (0xA0 ≤ n && n ≤ 0xD7FF) || (0xE000 ≤ n && n ≤ 0xFFFD) || 0x10000 ≤ n

/-- Whether a character ends a line; carriage returns are gone by then. -/
def isBreak (c : Char) : Bool := c == '\n' || c == '\u2028' || c == '\u2029'

/-- Whether a character is a space or a tab. -/
def isBlank (c : Char) : Bool := c == ' ' || c == '\t'

/-- Whether a word ends before this text: at a space, a tab, a line end or the end of the text. -/
def atWordEnd (s : List Char) : Bool :=
  match s with
  | [] => true
  | c :: _ => isBlank c || isBreak c

/-- The text with every line break written as a line feed. -/
def unifyBreaks : List Char → List Char
  | '\r' :: '\n' :: rest => '\n' :: unifyBreaks rest
  | c :: rest => (if c == '\r' || c == '\u0085' then '\n' else c) :: unifyBreaks rest
  | [] => []

/-- Whether a text starts with a mark of three characters that stands alone. -/
def startsDocument (mark : Char) (s : List Char) : Bool :=
  match s with
  | a :: b :: c :: rest => a == mark && b == mark && c == mark && atWordEnd rest
  | _ => false

/-- Whether a character separates the parts of a flow collection. -/
def isFlowMark (c : Char) : Bool :=
  c == ',' || c == '[' || c == ']' || c == '{' || c == '}'

/-- Whether a plain scalar can start here. -/
def startsPlain (inFlow : Bool) (s : List Char) : Bool :=
  match s with
  | [] => false
  | c :: rest =>
    let special := isBlank c || isBreak c || isFlowMark c ||
      c == '-' || c == '?' || c == ':' || c == '#' || c == '&' || c == '*' || c == '!' ||
      c == '|' || c == '>' || c == '\x27' || c == '"' || c == '%' || c == '@' || c == '\x60'
    !special || (c == '-' && !(rest.head?.any isBlank)) ||
      (!inFlow && (c == '?' || c == ':') && !atWordEnd rest)

/-! ## Positions -/

/-- A position in a text: what is left of it, how many bytes were before it, and the line and the
column, which counts characters. -/
structure Cursor where
  rest : List Char
  index : Nat
  line : Nat
  column : Nat

namespace Cursor

/-- The position before the first character. -/
def start (s : List Char) : Cursor := ⟨s, 0, 0, 0⟩

/-- The position after the next character. -/
def next (c : Cursor) : Cursor :=
  match c.rest with
  | [] => c
  | x :: rest =>
    if isBreak x then ⟨rest, c.index + x.utf8Size, c.line + 1, 0⟩
    else ⟨rest, c.index + x.utf8Size, c.line, c.column + 1⟩

/-- The position some characters further. -/
def skip : Nat → Cursor → Cursor
  | 0, c => c
  | n + 1, c => skip n c.next

/-- The position after the characters of a class. -/
def skipWhile (p : Char → Bool) (c : Cursor) : Cursor :=
  skip (c.rest.takeWhile p).length c

/-- Whether the next character is in a class. -/
def sees (p : Char → Bool) (c : Cursor) : Bool := c.rest.head?.any p

/-- Whether a document mark stands at the start of this line. -/
def atDocumentMark (c : Cursor) : Bool :=
  c.column == 0 && (startsDocument '-' c.rest || startsDocument '.' c.rest)

end Cursor

/-! ## Line folding -/

/-- The white space read since the last character of a scalar: blanks on its line or, once a line
has ended, the first line break and those after it. -/
structure Gap where
  blanks : List Char
  firstBreak : List Char
  breaks : List Char
  broken : Bool

namespace Gap

/-- No white space. -/
def none : Gap := ⟨[], [], [], false⟩

/-- What the gap stands for inside a scalar: a single line break is folded to a space. -/
def text (g : Gap) : List Char :=
  if g.broken then
    if g.firstBreak == ['\n'] then (if g.breaks.isEmpty then [' '] else g.breaks)
    else g.firstBreak ++ g.breaks
  else g.blanks

/-- The gap with one more blank or line break. -/
def push (g : Gap) (c : Char) : Gap :=
  if isBreak c then
    if g.broken then { g with breaks := g.breaks ++ [c] }
    else { g with blanks := [], firstBreak := [c], broken := true }
  else if g.broken then g
  else { g with blanks := g.blanks ++ [c] }

end Gap

end FactCube.Yaml
