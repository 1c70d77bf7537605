import FactCube.Yaml.Token

/-!
# Reading scalars

The three ways to write a scalar: plain, between quotes, and as an indented block. Each reader
starts at the scalar and gives its text and the position after it, or nothing if it is malformed.
-/

namespace FactCube.Yaml

/-! ## Plain scalars -/

/-- The characters of a plain scalar up to the next white space or the end of the scalar; nothing if
a colon stands in front of a mark of a flow collection. -/
def plainWord (inFlow : Bool) : List Char → Option (List Char)
  | [] => some []
  | c :: rest =>
    if isBlank c || isBreak c then some []
    else if inFlow && c == ':' && rest.head?.any (fun d => isFlowMark d || d == '?') then none
    else if c == ':' && atWordEnd rest then some []
    else if inFlow && isFlowMark c then some []
    else (plainWord inFlow rest).map (c :: ·)

/-- Takes blanks and line breaks into a gap. A tab may not indent a line. -/
def plainGap (indent : Nat) : Nat → Gap → Cursor → Option (Gap × Cursor)
  | 0, gap, c => some (gap, c)
  | fuel + 1, gap, c =>
    match c.rest with
    | x :: _ =>
      if isBlank x || isBreak x then
        if gap.broken && x == '\t' && c.column < indent then none
        else plainGap indent fuel (gap.push x) c.next
      else some (gap, c)
    | [] => some (gap, c)

/-- A plain scalar after the text read so far, the gap after it and the position after that. A line
indented less than `indent` does not belong to it. -/
def plainRest (inFlow : Bool) (indent : Nat) :
    Nat → List Char → Gap → Cursor → Option (List Char × Gap × Cursor)
  | 0, text, gap, c => some (text, gap, c)
  | fuel + 1, text, gap, c =>
    if c.atDocumentMark || c.sees (· == '#') then some (text, gap, c)
    else
      match plainWord inFlow c.rest with
      | none => none
      | some [] => some (text, gap, c)
      | some word =>
        let text := text ++ gap.text ++ word
        let after := Cursor.skip word.length c
        match plainGap indent after.rest.length Gap.none after with
        | none => none
        | some (gap, c) =>
          if !inFlow && c.column < indent then some (text, gap, c)
          else plainRest inFlow indent fuel text gap c

/-- The plain scalar at a position, the position after it, and whether a line ended after it. -/
def readPlain (inFlow : Bool) (indent : Nat) (c : Cursor) : Option (String × Cursor × Bool) :=
  (plainRest inFlow indent (c.rest.length + 1) [] Gap.none c).map fun (text, gap, c) =>
    (String.ofList text, c, gap.broken)

/-! ## Quoted scalars -/

/-- The value of some digits in base sixteen, if there are as many as asked for. -/
def hexNumber? (count : Nat) (s : List Char) : Option Nat :=
  let digits := s.take count
  let value (c : Char) : Option Nat :=
    if '0' ≤ c ∧ c ≤ '9' then some (c.toNat - 48)
    else if 'a' ≤ c ∧ c ≤ 'f' then some (c.toNat - 87)
    else if 'A' ≤ c ∧ c ≤ 'F' then some (c.toNat - 55)
    else none
  if digits.length < count then none
  else (digits.mapM value).map fun values => values.foldl (fun n d => n * 16 + d) 0

/-- The character of a number, if it is one. -/
def charOf? (n : Nat) : Option Char := if n.isValidChar then some (Char.ofNat n) else none

/-- The character an escape stands for and its length, the backslash not counted. -/
def escape? : List Char → Option (Char × Nat)
  | [] => none
  | c :: rest =>
    let plain (d : Char) : Option (Char × Nat) := some (d, 1)
    let coded (count : Nat) : Option (Char × Nat) :=
      ((hexNumber? count rest).bind charOf?).map fun d => (d, count + 1)
    match c with
    | '0' => plain '\x00'
    | 'a' => plain '\x07'
    | 'b' => plain '\x08'
    | 't' | '\t' => plain '\t'
    | 'n' => plain '\n'
    | 'v' => plain '\x0b'
    | 'f' => plain '\x0c'
    | 'r' => plain '\r'
    | 'e' => plain '\x1b'
    | 'N' => plain '\u0085'
    | '_' => plain '\u00a0'
    | 'L' => plain '\u2028'
    | 'P' => plain '\u2029'
    | 'x' => coded 2
    | 'u' => coded 4
    | 'U' => coded 8
    | c => if c == ' ' || c == '"' || c == '/' || c == '\\' then plain c else none

/-- The rest of a quoted scalar after the text read so far and the gap after it. -/
def quotedRest (quote : Char) : Nat → List Char → Gap → Cursor → Option (List Char × Cursor)
  | 0, _, _, _ => none
  | fuel + 1, text, gap, c =>
    if c.atDocumentMark then none
    else
      match c.rest with
      | [] => none
      | x :: rest =>
        if isBlank x || isBreak x then quotedRest quote fuel text (gap.push x) c.next
        else
          let text := text ++ gap.text
          if x == quote then
            if quote == '\x27' && rest.head? == some '\x27' then
              quotedRest quote fuel (text ++ [x]) Gap.none (Cursor.skip 2 c)
            else some (text, c.next)
          else if x == '\\' && quote == '"' then
            if rest.head?.any isBreak then
              quotedRest quote fuel text { Gap.none with broken := true } (Cursor.skip 2 c)
            else
              match escape? rest with
              | none => none
              | some (d, length) =>
                quotedRest quote fuel (text ++ [d]) Gap.none (Cursor.skip (length + 1) c)
          else quotedRest quote fuel (text ++ [x]) Gap.none c.next

/-- The quoted scalar at a position and the position after it. -/
def readQuoted (c : Cursor) : Option (String × Cursor) :=
  match c.rest with
  | [] => none
  | quote :: _ =>
    (quotedRest quote (c.rest.length + 1) [] Gap.none c.next).map fun (text, c) =>
      (String.ofList text, c)

/-! ## Block scalars -/

/-- What becomes of the line breaks at the end of a block. -/
inductive Chomping
  /-- All are dropped. -/
  | strip
  /-- The first is kept. -/
  | clip
  /-- All are kept. -/
  | keep
deriving DecidableEq, Repr

/-- The chomping a sign stands for. -/
def chomping? : Char → Option Chomping
  | '+' => some .keep
  | '-' => some .strip
  | _ => none

/-- The chomping and the indentation that the head of a block asks for, in either order, and the
position after them. An indentation of zero is malformed. -/
def blockHead (c : Cursor) : Option (Chomping × Option Nat × Cursor) :=
  let digit (c : Cursor) : Option (Option Nat × Cursor) :=
    match c.rest with
    | d :: _ =>
      if d == '0' then none
      else if '1' ≤ d ∧ d ≤ '9' then some (some (d.toNat - 48), c.next)
      else some (none, c)
    | [] => some (none, c)
  match c.rest.head?.bind chomping? with
  | some chomping => (digit c.next).map fun (indent?, c) => (chomping, indent?, c)
  | none =>
    (digit c).map fun (indent?, c) =>
      if indent?.isSome then
        match c.rest.head?.bind chomping? with
        | some chomping => (chomping, indent?, c.next)
        | none => (.clip, indent?, c)
      else (.clip, none, c)

/-- Skips the empty lines and the indentation before a line of a block whose indentation is known,
or finds it out: the widest of the empty lines and the first line. A tab may not indent. -/
def blockBreaks (known? : Option Nat) :
    Nat → Nat → List Char → Cursor → Option (Nat × List Char × Cursor)
  | 0, widest, breaks, c => some (widest, breaks, c)
  | fuel + 1, widest, breaks, c =>
    let spaces := (c.rest.takeWhile (· == ' ')).length
    let taken := match known? with
      | some indent => Nat.min spaces (indent - c.column)
      | none => spaces
    let c := Cursor.skip taken c
    let widest := Nat.max widest c.column
    let indenting := match known? with
      | some indent => c.column < indent
      | none => true
    match c.rest with
    | x :: _ =>
      if indenting && x == '\t' then none
      else if isBreak x then blockBreaks known? fuel widest (breaks ++ [x]) c.next
      else some (widest, breaks, c)
    | [] => some (widest, breaks, c)

/-- The state of a block scalar before a line: its text, the break that ended the last line, the
empty lines since, and whether the last line started with a blank. -/
structure BlockText where
  text : List Char
  lineBreak : List Char
  breaks : List Char
  blankStart : Bool

/-- The text of a block before its next line, which starts with a blank or not. In a folded block a
single break between two lines that start with no blank becomes a space. -/
def BlockText.joined (folded : Bool) (b : BlockText) (blankNext : Bool) : List Char :=
  if folded && b.lineBreak == ['\n'] && !b.blankStart && !blankNext then
    b.text ++ (if b.breaks.isEmpty then [' '] else []) ++ b.breaks
  else b.text ++ b.lineBreak ++ b.breaks

/-- The lines of a block of a known indentation. -/
def blockLines (folded : Bool) (indent : Nat) :
    Nat → BlockText → Cursor → Option (BlockText × Cursor)
  | 0, b, c => some (b, c)
  | fuel + 1, b, c =>
    if c.column != indent || c.rest.isEmpty then some (b, c)
    else
      let blank := c.sees isBlank
      let line := c.rest.takeWhile fun x => !isBreak x
      let text := b.joined folded blank ++ line
      let c := Cursor.skip line.length c
      let lineBreak := c.rest.head?.toList
      match blockBreaks (some indent) (c.rest.length + 1) 0 [] c.next with
      | none => none
      | some (_, breaks, c) => blockLines folded indent fuel ⟨text, lineBreak, breaks, blank⟩ c

/-- The text of a finished block. -/
def BlockText.finish (chomping : Chomping) (b : BlockText) : String :=
  String.ofList
    (match chomping with
     | .strip => b.text
     | .clip => b.text ++ b.lineBreak
     | .keep => b.text ++ b.lineBreak ++ b.breaks)

/-- The block scalar at a position inside a collection of some indentation, -1 for none, and the
position after it. -/
def readBlock (outer : Int) (c : Cursor) : Option (String × Cursor) :=
  let folded := c.sees (· == '>')
  match blockHead c.next with
  | none => none
  | some (chomping, indent?, c) =>
    let c := c.skipWhile isBlank
    let c := if c.sees (· == '#') then c.skipWhile fun x => !isBreak x else c
    if !(c.rest.isEmpty || c.sees isBreak) then none
    else
      let c := c.next
      let least := (outer + 1).toNat
      let known? := indent?.map fun n => if 0 ≤ outer then outer.toNat + n else n
      match blockBreaks known? (c.rest.length + 1) 0 [] c with
      | none => none
      | some (widest, breaks, c) =>
        let indent := known?.getD (Nat.max (Nat.max widest least) 1)
        (blockLines folded indent (c.rest.length + 1) ⟨[], [], breaks, false⟩ c).map
          fun (b, c) => (b.finish chomping, c)

end FactCube.Yaml
