import Constituency.Pattern.Expr

/-
  This file defines the flags that govern how the text of a
  pattern is read, and reads changes to them.

  Key definitions include:
    * `Flags`
    * `Flags.default`
    * `Flags.set?`
    * `Flags.skip`
    * `Flags.takeSkipping`
    * `FlagChange`
    * `Flags.readChange?`
    * `Flags.expand`
    * `Flags.charsExpr?`
-/

namespace Constituency

/- How the text of a pattern is read. -/
structure Flags where
  /- Letters stand for both cases. -/
  ignoreCase : Bool
  /- `^` and `$` hold at lines. -/
  multiLine : Bool
  /- `.` stands for line ends too. -/
  dotAll : Bool
  /- Repetitions are greedy when followed by `?`. -/
  swapGreed : Bool
  /- Lines may end in `\r` too. -/
  anyLineBreak : Bool
  /- Named classes and cases reach beyond ASCII. -/
  unicode : Bool
  /- Blanks and comments are skipped. -/
  verbose : Bool
deriving DecidableEq

namespace Flags

/- Only Unicode is on. -/
def default : Flags :=
  ⟨false, false, false, false, false, true, false⟩

/- Turn the flag with a letter on or off. -/
def set?
    (flags : Flags)
    (value : Bool) : Char → Option Flags
  | 'i' => some { flags with ignoreCase := value }
  | 'm' => some { flags with multiLine := value }
  | 's' => some { flags with dotAll := value }
  | 'U' => some { flags with swapGreed := value }
  | 'R' => some { flags with anyLineBreak := value }
  | 'u' => some { flags with unicode := value }
  | 'x' => some { flags with verbose := value }
  | _ => none

------------------------------------------------------------
-- Blanks and Comments
------------------------------------------------------------

/-
  Drop blanks, and comments from `#` to the end of the line.
-/
def dropBlanks
    (inComment : Bool) : List Char → List Char
  | [] => []
  | c :: rest =>
      if inComment then
        dropBlanks (c != '\n') rest
      else if Text.isBlank c then
        dropBlanks false rest
      else if c = '#' then
        dropBlanks true rest
      else
        c :: rest

/- Drop what is skipped at this place. -/
def skip
    (flags : Flags)
    (text : List Char) : List Char :=
  if flags.verbose then dropBlanks false text else text

theorem length_dropBlanks_le
    (inComment : Bool)
    (text : List Char) :
    (dropBlanks inComment text).length ≤ text.length := by
  induction text generalizing inComment with
  | nil => simp [dropBlanks]
  | cons c rest ih =>
      unfold dropBlanks
      have hComment := ih (c != '\n')
      have hBlank := ih false
      have hStart := ih true
      simp only [List.length_cons]
      split
      · omega
      · split
        · omega
        · split
          · omega
          · simp

theorem length_skip_le
    (flags : Flags)
    (text : List Char) :
    (flags.skip text).length ≤ text.length := by
  unfold skip
  split
  · exact length_dropBlanks_le false text
  · exact Nat.le_refl _

/-
  Split off the leading characters of a kind, skipping what
  is to be skipped after each.
-/
def takeSkipping
    (flags : Flags)
    (kind : Char → Bool)
    (text : List Char) : List Char × List Char :=
  match text with
  | [] => ([], [])
  | c :: rest =>
      if kind c then
        let (taken, left) :=
          takeSkipping flags kind (flags.skip rest)
        (c :: taken, left)
      else
        ([], c :: rest)
termination_by text.length
decreasing_by
  have hShorter := flags.length_skip_le rest
  simp only [List.length_cons]
  omega

------------------------------------------------------------
-- Changes of Flags
------------------------------------------------------------

end Flags

/- What stands between `(?` and `:` or `)`. -/
structure FlagChange where
  flags : Flags
  /- No flag is named. -/
  isEmpty : Bool
  /- A group follows, as the change ends in `:`. -/
  opensGroup : Bool
  rest : List Char

namespace Flags

/-
  Read flags up to `:` or `)`. Each letter may stand there
  once; those after `-` are turned off, and something must
  follow `-`.
-/
def readFlags
    (flags : Flags)
    (seen : List Char)
    (negated afterMinus : Bool) :
    List Char → Option FlagChange
  | [] => none
  | c :: rest =>
      if c = ':' ∨ c = ')' then
        if afterMinus then
          none
        else
          some ⟨flags, seen.isEmpty, c == ':', rest⟩
      else if c = '-' then
        if negated then
          none
        else
          readFlags flags seen true true rest
      else if c ∈ seen then
        none
      else
        match flags.set? (!negated) c with
        | none => none
        | some flags =>
            readFlags flags (c :: seen) negated false rest

/- Read a change of flags from what follows `(?`. -/
def readChange?
    (flags : Flags)
    (text : List Char) : Option FlagChange :=
  readFlags flags [] false false text

------------------------------------------------------------
-- Classes Under Flags
------------------------------------------------------------

/- A class with both cases when case is ignored. -/
def expand
    (flags : Flags)
    (set : CharClass) : CharClass :=
  if flags.ignoreCase then
    if flags.unicode then
      .anyCase set
    else
      .anyAsciiCase set
  else
    set

/-
  The pattern of one character of a class. Without Unicode a
  class must be one of ASCII characters; whether it is shows
  at its first character beyond.
-/
def charsExpr?
    (flags : Flags)
    (set : CharClass) : Option Expr :=
  if !flags.unicode && set.contains '\x80' then
    none
  else
    some (.chars set)

/- The decimal digits. -/
def digit
    (flags : Flags) : CharClass :=
  if flags.unicode then .digit else .asciiDigit

/- The blanks. -/
def blank
    (flags : Flags) : CharClass :=
  if flags.unicode then .blank else .asciiBlank

/- The characters that words are made of. -/
def word
    (flags : Flags) : CharClass :=
  if flags.unicode then .word else .asciiWord

/- What `.` stands for. -/
def dot
    (flags : Flags) : CharClass :=
  if flags.dotAll then
    .all
  else if flags.anyLineBreak then
    .complement (.ofRanges [('\n', '\n'), ('\r', '\r')])
  else
    .complement (.single '\n')

/- What `^` stands for. -/
def caret
    (flags : Flags) : Look :=
  if flags.multiLine then
    if flags.anyLineBreak then .anyLineStart else .lineStart
  else
    .textStart

/- What `$` stands for. -/
def dollar
    (flags : Flags) : Look :=
  if flags.multiLine then
    if flags.anyLineBreak then .anyLineEnd else .lineEnd
  else
    .textEnd

end Flags

end Constituency
