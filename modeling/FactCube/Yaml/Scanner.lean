import FactCube.Decimal.Numeral
import FactCube.Yaml.Scalar

/-!
# Finding tokens

The scanner goes through a text once and makes its indentation explicit. Whether something is a key
shows only at the colon after it, so the scanner remembers where the last possible key on each level
started and puts the key's token in front of it when the colon comes.
-/

namespace FactCube.Yaml

/-- The place of something that may turn out to be a key: the count of tokens before it and its
position. A required key stands at the start of a line of a block mapping. -/
structure PossibleKey where
  tokens : Nat
  index : Nat
  line : Nat
  column : Nat
  required : Bool

/-- A scanner at work. `indents` holds the indentation of the open block collections, the innermost
first, and `keys` the last possible key on each level of flow collections, the innermost first. -/
structure Scanner where
  cursor : Cursor
  tokens : Array Token
  indent : Int
  indents : List Int
  flowLevel : Nat
  keys : List (Option PossibleKey)
  keyAllowed : Bool

namespace Scanner

/-! ## Small steps -/

/-- The scanner before the first character. -/
def start (s : List Char) : Scanner :=
  { cursor := Cursor.start s
    tokens := #[]
    indent := -1
    indents := []
    flowLevel := 0
    keys := [none]
    keyAllowed := true }

/-- Whether the scanner is inside a flow collection. -/
def inFlow (s : Scanner) : Bool := s.flowLevel != 0

/-- The scanner with one more token. -/
def emit (s : Scanner) (token : Token) : Scanner := { s with tokens := s.tokens.push token }

/-- The scanner some characters further. -/
def advance (s : Scanner) (n : Nat) : Scanner := { s with cursor := s.cursor.skip n }

/-- The scanner with a key allowed next or not. -/
def allowKey (s : Scanner) (allowed : Bool) : Scanner := { s with keyAllowed := allowed }

/-- Puts a token in front of those from a position on. -/
def insertToken (tokens : Array Token) (position : Nat) (token : Token) : Array Token :=
  ((tokens.toList.take position) ++ token :: tokens.toList.drop position).toArray

/-- Ends the block collections that are indented more than `column`. -/
def unroll (column : Int) : Nat → Scanner → Scanner
  | 0, s => s
  | fuel + 1, s =>
    if s.inFlow || s.indent ≤ column then s
    else
      match s.indents with
      | [] => s
      | outer :: rest =>
        unroll column fuel { s.emit .blockEnd with indent := outer, indents := rest }

/-- Ends the block collections that are indented more than `column`. -/
def unrollTo (column : Int) (s : Scanner) : Scanner := unroll column (s.indents.length + 1) s

/-- Starts a block collection where the column is indented more than the innermost one. -/
def roll (column : Nat) (position : Nat) (token : Token) (s : Scanner) : Scanner :=
  if s.inFlow || (column : Int) ≤ s.indent then s
  else
    { s with
      tokens := insertToken s.tokens position token
      indents := s.indent :: s.indents
      indent := column }

/-- Forgets the last possible key of this level; a required one should have become a key. -/
def dropKey (s : Scanner) : Option Scanner :=
  match s.keys with
  | some key :: rest => if key.required then none else some { s with keys := none :: rest }
  | _ => some s

/-- Remembers that a key may start here. -/
def saveKey (s : Scanner) : Option Scanner :=
  if s.keyAllowed then
    let c := s.cursor
    let required := !s.inFlow && s.indent == c.column
    (dropKey s).map fun s =>
      { s with keys := some ⟨s.tokens.size, c.index, c.line, c.column, required⟩ :: s.keys.drop 1 }
  else some s

/-- How many bytes may stand between the start of a key and its colon. -/
def longestKey : Nat := 1024

/-- Forgets possible keys that ended without a colon: on an earlier line or too far back. -/
def expireKeys (s : Scanner) : Option Scanner :=
  let c := s.cursor
  let check (key? : Option PossibleKey) : Option (Option PossibleKey) :=
    match key? with
    | none => some none
    | some key =>
      if key.line < c.line || key.index + longestKey < c.index then
        if key.required then none else some none
      else some (some key)
  (s.keys.mapM check).map fun keys => { s with keys := keys }

/-! ## White space -/

/-- Goes to the next token. Outside flow collections a line break makes a key possible, and tabs are
no white space where a key may start. A byte order mark at the start of a line is passed over, but
takes a column. -/
def skipGap : Nat → Scanner → Scanner
  | 0, s => s
  | fuel + 1, s =>
    let c :=
      if s.cursor.column == 0 && s.cursor.sees (· == '\ufeff') then s.cursor.next else s.cursor
    let tabs := s.inFlow || !s.keyAllowed
    let c := c.skipWhile fun x => x == ' ' || (tabs && x == '\t')
    let c := if c.sees (· == '#') then c.skipWhile fun x => !isBreak x else c
    if c.sees isBreak then
      skipGap fuel { s with cursor := c.next, keyAllowed := s.keyAllowed || !s.inFlow }
    else { s with cursor := c }

/-! ## Tokens -/

/-- A token that starts or ends a document. -/
def documentMark (token : Token) (s : Scanner) : Option Scanner :=
  (dropKey (s.unrollTo (-1))).map fun s => ((s.allowKey false).emit token).advance 3

/-- The start of a flow collection, which may itself be a key. -/
def flowStart (token : Token) (s : Scanner) : Option Scanner :=
  (saveKey s).map fun s =>
    ({ s with
        keys := none :: s.keys
        flowLevel := s.flowLevel + 1
        keyAllowed := true }.emit token).advance 1

/-- The end of a flow collection. -/
def flowEnd (token : Token) (s : Scanner) : Option Scanner :=
  (dropKey s).map fun s =>
    let keys := if s.inFlow then s.keys.drop 1 else s.keys
    let s := { s with keys := keys, flowLevel := s.flowLevel - 1, keyAllowed := false }
    (s.emit token).advance 1

/-- A comma between the parts of a flow collection. -/
def flowEntry (s : Scanner) : Option Scanner :=
  (dropKey s).map fun s => ((s.allowKey true).emit .flowEntry).advance 1

/-- The dash of a block sequence. -/
def blockEntry (s : Scanner) : Option Scanner :=
  if !s.inFlow && !s.keyAllowed then none
  else
    let s := s.roll s.cursor.column s.tokens.size .blockSequenceStart
    (dropKey s).map fun s => ((s.allowKey true).emit .blockEntry).advance 1

/-- A question mark that announces a key. -/
def keyMark (s : Scanner) : Option Scanner :=
  if !s.inFlow && !s.keyAllowed then none
  else
    let s := s.roll s.cursor.column s.tokens.size .blockMappingStart
    (dropKey s).map fun s => ((s.allowKey (!s.inFlow)).emit .key).advance 1

/-- A colon: what stood before it becomes a key if it can. -/
def valueMark (s : Scanner) : Option Scanner :=
  match s.keys with
  | some key :: rest =>
    let s := { s with tokens := insertToken s.tokens key.tokens .key, keys := none :: rest }
    let s := s.roll key.column key.tokens .blockMappingStart
    some (((s.allowKey false).emit .value).advance 1)
  | _ =>
    if !s.inFlow && !s.keyAllowed then none
    else
      let s := s.roll s.cursor.column s.tokens.size .blockMappingStart
      some (((s.allowKey (!s.inFlow)).emit .value).advance 1)

/-- The number at the start of a text, of at most nine digits, and the text after it. -/
def versionNumber? (s : List Char) : Option (Nat × List Char) :=
  let (digits, rest) := Decimal.spanDigits s
  if digits.isEmpty || 9 < digits.length then none else some (Decimal.digitsValue digits, rest)

/-- Whether a line tells the version of the language, 1.1 or 1.2, with nothing but a comment after
it. -/
def tellsVersion (line : List Char) : Bool :=
  match line with
  | '%' :: 'Y' :: 'A' :: 'M' :: 'L' :: blank :: rest =>
    match versionNumber? (rest.dropWhile isBlank) with
    | some (major, '.' :: rest) =>
      match versionNumber? rest with
      | some (minor, rest) =>
        isBlank blank && major == 1 && (minor == 1 || minor == 2) &&
          (rest.dropWhile isBlank).head?.all (· == '#')
      | none => false
    | _ => false
  | _ => false

/-- A line that starts with a percent sign; only the version of the language may be given. The line
break belongs to the token, so no key may start on the line after it. -/
def directive (s : Scanner) : Option Scanner :=
  let line := s.cursor.rest.takeWhile fun x => !isBreak x
  if tellsVersion line then
    (dropKey (s.unrollTo (-1))).map fun s =>
      ((s.allowKey false).emit .directive).advance (line.length + 1)
  else none

/-- A plain scalar. -/
def plain (s : Scanner) : Option Scanner :=
  (saveKey s).bind fun s =>
    (readPlain s.inFlow (s.indent + 1).toNat s.cursor).map fun (text, c, broken) =>
      { s.emit (.scalar text true) with cursor := c, keyAllowed := broken }

/-- A quoted scalar. -/
def quoted (s : Scanner) : Option Scanner :=
  (saveKey s).bind fun s =>
    (readQuoted s.cursor).map fun (text, c) =>
      { s.emit (.scalar text false) with cursor := c, keyAllowed := false }

/-- A block scalar. -/
def block (s : Scanner) : Option Scanner :=
  (dropKey s).bind fun s =>
    (readBlock s.indent s.cursor).map fun (text, c) =>
      { s.emit (.scalar text false) with cursor := c, keyAllowed := true }

/-- The next token, at a position that is not white space. -/
def token (s : Scanner) : Option Scanner :=
  let c := s.cursor
  let rest := c.rest.drop 1
  match c.rest with
  | [] => some s
  | x :: _ =>
    if c.column == 0 && x == '%' then s.directive
    else if c.column == 0 && startsDocument '-' c.rest then s.documentMark .documentStart
    else if c.column == 0 && startsDocument '.' c.rest then s.documentMark .documentEnd
    else if x == '[' then s.flowStart .flowSequenceStart
    else if x == '{' then s.flowStart .flowMappingStart
    else if x == ']' then s.flowEnd .flowSequenceEnd
    else if x == '}' then s.flowEnd .flowMappingEnd
    else if x == ',' then s.flowEntry
    else if x == '-' && atWordEnd rest then s.blockEntry
    else if x == '?' && (s.inFlow || atWordEnd rest) then s.keyMark
    else if x == ':' && (s.inFlow || atWordEnd rest) then s.valueMark
    else if (x == '|' || x == '>') && !s.inFlow then s.block
    else if x == '"' || x == '\x27' then s.quoted
    else if startsPlain s.inFlow c.rest then s.plain
    else none

/-- The tokens of the rest of a text. Every token takes at least one character. -/
def run : Nat → Scanner → Option Scanner
  | 0, _ => none
  | fuel + 1, s =>
    match expireKeys (skipGap (s.cursor.rest.length + 1) s) with
    | none => none
    | some s =>
      let s := s.unrollTo s.cursor.column
      if s.cursor.rest.isEmpty then dropKey (s.unrollTo (-1))
      else (token s).bind (run fuel)

end Scanner

/-- The tokens of a text, if it is well formed. -/
def tokens? (text : String) : Option (List Token) :=
  let s := text.toList
  if s.all isAllowed then
    let s := unifyBreaks s
    (Scanner.run (s.length + 1) (Scanner.start s)).map fun s => s.tokens.toList
  else none

end FactCube.Yaml
