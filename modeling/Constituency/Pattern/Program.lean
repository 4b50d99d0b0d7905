import Constituency.Pattern.Expr

/-
  This file turns patterns into programs, and runs programs
  on texts. A run follows all ways of matching at once, the
  preferred ones first; of two ways that meet at one
  instruction only the preferred one goes on.

  Key definitions include:
    * `Instruction`
    * `Program`
    * `Program.ofExpr`
    * `Program.follow`
    * `Program.matchFrom`
    * `Program.matchLength`
-/

namespace Constituency

/- What a run does at one place of a program. -/
inductive Instruction where
  /- The text read so far is a match. -/
  | accept
  /- Read a character of a class. -/
  | read (set : CharClass) (next : Nat)
  /- Go on only if a condition holds. -/
  | check (condition : Look) (next : Nat)
  /- Go on in two ways, the first one preferred. -/
  | branch (first second : Nat)
deriving DecidableEq

/- Numbered instructions and the one to begin with. -/
structure Program where
  code : Array Instruction
  entry : Nat
deriving DecidableEq

namespace Program

------------------------------------------------------------
-- Programs of Patterns
------------------------------------------------------------

/- Add an instruction and begin with it. -/
def push
    (program : Program)
    (instruction : Instruction) : Program :=
  ⟨program.code.push instruction, program.code.size⟩

/- Prefer to go on when greedy, to leave when not. -/
def fork
    (greedy : Bool)
    (inside outside : Nat) : Instruction :=
  if greedy then
    .branch inside outside
  else
    .branch outside inside

/-
  Put a piece of program before another a number of times.
-/
def times
    (piece : Program → Program) :
    Nat → Program → Program
  | 0, program => program
  | count + 1, program => piece (times piece count program)

/-
  Put an optional piece before a program a number of times,
  each time inside the one before. Leaving leads to `exit`.
-/
def optionally
    (piece : Program → Program)
    (greedy : Bool)
    (exit : Nat) :
    Nat → Program → Program
  | 0, program => program
  | count + 1, program =>
      let body :=
        piece (optionally piece greedy exit count program)
      body.push (fork greedy body.entry exit)

/-
  Put a piece that may be gone through once or more before a
  program. The fork is placed first, as the piece leads back
  to it, and is filled in when the piece is there.
-/
def onceOrMore
    (piece : Program → Program)
    (greedy : Bool)
    (program : Program) : Program :=
  let slot := program.code.size
  let body := piece (program.push .accept)
  ⟨body.code.setIfInBounds slot
      (fork greedy body.entry program.entry),
    body.entry⟩

/-
  Put the program of a pattern before a program that goes on
  from where the pattern has matched.
-/
def prepend : Expr → Program → Program
  | .empty, program => program
  | .chars set, program =>
      program.push (.read set program.entry)
  | .look condition, program =>
      program.push (.check condition program.entry)
  | .sequence first second, program =>
      prepend first (prepend second program)
  | .choice first second, program =>
      let right := prepend second program
      let left :=
        prepend first ⟨right.code, program.entry⟩
      left.push (.branch left.entry right.entry)
  | .repetition inner least (some most) greedy, program =>
      times (prepend inner) least
        (optionally (prepend inner) greedy program.entry
          (most - least) program)
  | .repetition inner 0 none greedy, program =>
      let body :=
        onceOrMore (prepend inner) greedy program
      body.push (fork greedy body.entry program.entry)
  | .repetition inner (least + 1) none greedy, program =>
      times (prepend inner) least
        (onceOrMore (prepend inner) greedy program)

/- The program that matches a pattern. -/
def ofExpr
    (expr : Expr) : Program :=
  prepend expr ⟨#[.accept], 0⟩

------------------------------------------------------------
-- Running Programs
------------------------------------------------------------

/-
  Follow conditions and branches from some instructions, in
  order, to those that read or accept. An instruction that
  was met before is not followed again. `budget` bounds the
  number of instructions looked at.
-/
def follow
    (code : Array Instruction)
    (before after : Option Char) :
    Nat → List Nat → List Nat → List Instruction
  | 0, _, _ => []
  | _ + 1, _, [] => []
  | budget + 1, met, place :: places =>
      if place ∈ met then
        follow code before after budget met places
      else
        let met := place :: met
        match code[place]? with
        | none => follow code before after budget met places
        | some (.branch first second) =>
            follow code before after budget met
              (first :: second :: places)
        | some (.check condition next) =>
            if condition.holds before after then
              follow code before after budget met
                (next :: places)
            else
              follow code before after budget met places
        | some instruction =>
            instruction ::
              follow code before after budget met places

/-
  All that can be reached from some instructions. Each
  instruction is followed once and leads to at most two.
-/
def reach
    (code : Array Instruction)
    (before after : Option Char)
    (places : List Nat) : List Instruction :=
  follow code before after
    (2 * code.size + places.length + 1) [] places

/- Where reading a character leads, in order. -/
def readOn
    (c : Char)
    (threads : List Instruction) : List Nat :=
  threads.filterMap
    (fun
      | .read set next =>
          if set.contains c then some next else none
      | _ => none)

/-
  The length of the preferred match, given the threads that
  are alive at a place. `count` characters have been read.
  A thread that accepts ends all threads after it, and is
  preferred to what was accepted before.
-/
def matchFrom
    (code : Array Instruction)
    (count : Nat)
    (best : Option Nat)
    (threads : List Instruction)
    (text : List Char) : Option Nat :=
  let live := threads.takeWhile (· != .accept)
  let best :=
    if Instruction.accept ∈ threads then
      some count
    else
      best
  match text with
  | [] => best
  | c :: rest =>
      match readOn c live with
      | [] => best
      | places =>
          matchFrom code (count + 1) best
            (reach code (some c) rest.head? places) rest

/-
  The length of the preferred match at the start of a text,
  given the character before it.
-/
def matchLength
    (program : Program)
    (before : Option Char)
    (text : List Char) : Option Nat :=
  matchFrom program.code 0 none
    (reach program.code before text.head? [program.entry])
    text

end Program

end Constituency
