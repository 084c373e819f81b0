/-!
# What a terminal shows

Text that somebody typed can hold control characters and control sequences, which a terminal obeys
instead of showing them. A message that quotes such a text leaves them out. A control sequence
starts with the escape character, and its second character tells how it ends:

* after `[`, with a character from `@` to `~`;
* after `]`, with a bell;
* after `X`, `^` or `_`, with a character that has the byte `9C` among its bytes;
* after `P` and the numbers and marks that may stand behind it, in the same way;
* after any number of characters from the space to `/`, with a character from `0` to `~`;
* and with that second character itself in all other cases.

An escape character starts a new sequence wherever it stands, and two control characters break off
any sequence. Other control characters inside a sequence do not end it, and neither do other
characters outside of ASCII. Nothing inside a sequence is shown, except that blanks are shown in
sequences that do not carry text. What becomes of the sequence around such a blank depends on how
the text is read (`BlankRule`).

Since a quoted text may break off in the middle of a sequence, messages switch the colour before and
after it (`emphasised`): the switch ends whatever the quoted text has left open.
-/

namespace RecursiveMatrix.Text

/-! ## Control sequences -/

/-- How far a text is into a control sequence. -/
inductive TerminalState where
  /-- Outside of any. -/
  | plain
  /-- After the escape character. -/
  | escape
  /-- After the escape character and at least one character from the space to `/`. -/
  | escapeMore
  /-- Inside a sequence that a character from `@` to `~` ends. -/
  | command
  /-- At the start of a text for a device. -/
  | device
  /-- Among the numbers in front of a text for a device. -/
  | deviceNumbers
  /-- After a character from the space to `/` in front of a text for a device. -/
  | deviceMore
  /-- Inside a title, which a bell ends. -/
  | title
  /-- Inside a text that a character with the byte `9C` ends. -/
  | message
  deriving DecidableEq, Repr

/-- A control character that is shown as the blank it is. -/
def isShownControl (c : Char) : Bool := c == '\t' || c == '\n' || c == '\x0C' || c == '\r'

/-- A control character of ASCII. -/
def isControl (c : Char) : Bool := c.toNat < 0x20 || c.toNat == 0x7F

def isAscii (c : Char) : Bool := c.toNat < 0x80

/-- The byte that ends a text for a device. -/
def textEnd : UInt8 := 0x9C

namespace TerminalState

/-- The state after the escape character and `c`, which is in ASCII and no control character. -/
def opened (c : Char) : TerminalState :=
  if c.toNat < 0x30 then escapeMore
  else if c = '[' then command
  else if c = ']' then title
  else if c = 'P' then device
  else if c = 'X' ∨ c = '^' ∨ c = '_' then message
  else plain

/-- The state after a character in front of a text for a device, which is in ASCII and no control
character. Numbers come first, and then characters from the space to `/`; a mark from `<` to `?` can
only stand before the first number. Whatever else comes is the start of the text. -/
def addressed (s : TerminalState) (c : Char) : TerminalState :=
  if c.toNat < 0x30 then deviceMore
  else if s = deviceMore then message
  else if c.toNat < 0x3C then deviceNumbers
  else if c.toNat < 0x40 ∧ s = device then deviceNumbers
  else message

/-- The state after a character that is not shown. -/
def after (s : TerminalState) (c : Char) : TerminalState :=
  if c = '\x1B' then escape
  else if c = '\x18' ∨ c = '\x1A' then plain
  else if !isAscii c then
    if s = message ∧ textEnd ∈ String.utf8EncodeChar c then plain else s
  else if isControl c then
    if s = title ∧ c = '\x07' then plain else s
  else
    match s with
    | plain => plain
    | escape => opened c
    | escapeMore => if c.toNat < 0x30 then escapeMore else plain
    | command => if c.toNat < 0x40 then command else plain
    | device | deviceNumbers | deviceMore => s.addressed c
    | title => title
    | message => message

/-- The character is shown in the given state. -/
def shows (s : TerminalState) (c : Char) : Bool :=
  match s with
  | plain => !isControl c || isShownControl c
  | escape | escapeMore | command => isShownControl c
  | _ => false

end TerminalState

/-! ## Reading a text -/

/-- What a blank does to the sequence in which it is shown. -/
inductive BlankRule where
  /-- It ends the sequence. -/
  | ends
  /-- It only suspends the sequence, and the text goes on as if it were outside of it. A character
  that is not shown takes the sequence up again, and one outside of ASCII ends it. -/
  | suspends
  deriving DecidableEq, Repr

/-- Where the reading of a text stands. -/
structure Reading where
  /-- How far it is into a control sequence. -/
  state : TerminalState
  /-- The sequence is suspended. -/
  suspended : Bool
  deriving DecidableEq, Repr

namespace Reading

/-- Outside of any sequence. -/
def start : Reading := ⟨.plain, false⟩

def shows (r : Reading) (c : Char) : Bool :=
  if r.suspended then TerminalState.plain.shows c else r.state.shows c

/-- The reading after a character that is not shown. -/
def hide (r : Reading) (c : Char) : Reading := ⟨r.state.after c, false⟩

/-- The reading after a character that is shown. -/
def pass (rule : BlankRule) (r : Reading) (c : Char) : Reading :=
  match rule with
  | .ends => start
  | .suspends => if isAscii c then ⟨r.state, true⟩ else start

/-- What is shown of a text. -/
def run (rule : BlankRule) : Reading → List Char → List Char
  | _, [] => []
  | r, c :: rest =>
    if r.shows c then c :: run rule (r.pass rule c) rest else run rule (r.hide c) rest

end Reading

def shown (rule : BlankRule) (s : String) : String :=
  String.ofList (Reading.start.run rule s.toList)

/-! ## Messages -/

/-- A text between a switch to yellow and a switch back, which a terminal obeys even where the text
before them breaks off inside a sequence. -/
def emphasised (s : String) : String := "\x1B[33m" ++ s ++ "\x1B[0m"

/-- The first line of a text, without the line break. -/
def firstLine (s : String) : String :=
  let line := s.toList.takeWhile (· != '\n')
  if line.length < s.length ∧ line.getLast? = some '\r' then String.ofList line.dropLast
  else String.ofList line

end RecursiveMatrix.Text
