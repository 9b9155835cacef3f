/-
The words of a TOML text: punctuation, strings with their escapes read, blanks, line ends, comments,
and bare words. A scan gives a token for every byte of the text, or nothing if some part of the text
belongs to no token.
-/
import Interconnect.Span
import Interconnect.Number.Decimal

namespace Interconnect.Toml

inductive TokenKind where
  | blank (raw : String)
  | newline
  | comment
  | dot
  | equals
  | comma
  | openSquare
  | closeSquare
  | openCurly
  | closeCurly
  /-- A quoted string, by what it stands for. -/
  | quoted (value : String) (multiline : Bool)
  | word (raw : String)
  deriving DecidableEq, Repr

structure Token where
  kind : TokenKind
  span : Span
  deriving DecidableEq, Repr

/-! ## Characters -/

def isBlank (c : Char) : Bool := c = ' ' || c = '\t'

/-- What may stand in a comment or, unescaped, in a string: no control character but the tab. -/
def isTextChar (c : Char) : Bool := c = '\t' || (' ' ≤ c && c ≠ '\x7f')

/-- What a bare word goes on with: anything that starts no other token. -/
def isWordChar (c : Char) : Bool :=
  !isBlank c && !(c ∈ ['\n', '\r', '#', '.', '=', ',', '[', ']', '\x7b', '\x7d', '\'', '"'])

/-- The length of a line end at the start of `cs`; 0 if there is none. -/
def lineEnd : List Char → Nat
  | '\n' :: _ => 1
  | '\r' :: '\n' :: _ => 2
  | _ => 0

/-! ## Strings -/

/-- The character with that number, if it is one. -/
def charOfNumber? (n : Nat) : Option Char :=
  if h : n.isValidChar then some (Char.ofNatAux n h) else none

/-- Reads the character that is written as a number of `count` hexadecimal digits. -/
def hexEscape (count : Nat) (cs : List Char) : Option (Char × Nat) := do
  let digits := cs.take count
  if digits.length < count then none
  else some ((← charOfNumber? (← Decimal.natOfDigits? 16 digits)), count + 1)

/-- The character that an escape stands for, and how many characters follow the backslash. -/
def escape : List Char → Option (Char × Nat)
  | [] => none
  | c :: cs => match c with
    | 'b' => some ('\x08', 1)
    | 't' => some ('\t', 1)
    | 'n' => some ('\n', 1)
    | 'f' => some ('\x0c', 1)
    | 'r' => some ('\r', 1)
    | 'e' => some ('\x1b', 1)
    | '"' => some ('"', 1)
    | '\\' => some ('\\', 1)
    | 'x' => hexEscape 2 cs
    | 'u' => hexEscape 4 cs
    | 'U' => hexEscape 8 cs
    | _ => none

/-- How many blanks and line ends `cs` starts with. -/
def gap : List Char → Nat
  | [] => 0
  | c :: cs =>
    if isBlank c || c = '\n' then gap cs + 1
    else if c = '\r' && lineEnd (c :: cs) = 2 then gap cs + 1
    else 0

/-- A backslash at the end of a line joins it with the next: how much to leave out after it. -/
def lineJoin (cs : List Char) : Option Nat :=
  if 0 < lineEnd (cs.dropWhile isBlank) then some (gap cs) else none

/-- How a kind of string is read on. -/
structure StringForm where
  quote : Char
  multiline : Bool
  escapes : Bool

/-- What to do at a place in a string: take a character into it, leave some out, or end it, with
up to two quotes more. The number is that of the characters to pass over. -/
inductive StringStep where
  | take (c : Char) (width : Nat)
  | skip (width : Nat)
  | close (extra width : Nat)
  | bad

/-- The step at a quote of a multi-line string. Three quotes end it, and two more may belong to it. -/
def StringForm.atQuote (f : StringForm) (cs : List Char) : StringStep :=
  if f.multiline then
    let run := 1 + (cs.takeWhile (· = f.quote)).length
    if run < 3 then .take f.quote 1
    else if run ≤ 5 then .close (run - 3) run
    else .bad
  else .close 0 1

def StringForm.atEscape (f : StringForm) (cs : List Char) : StringStep :=
  match if f.multiline then lineJoin cs else none with
  | some width => .skip (width + 1)
  | none =>
    match escape cs with
    | some (c, width) => .take c (width + 1)
    | none => .bad

def StringForm.step (f : StringForm) (c : Char) (cs : List Char) : StringStep :=
  if c = f.quote then f.atQuote cs
  else if f.escapes && c = '\\' then f.atEscape cs
  else if isTextChar c then .take c 1
  else if f.multiline && 0 < lineEnd (c :: cs) then .take c 1
  else .bad

/-- Reads a string after its opening quotes: what it stands for, and its length with the closing
quotes. `skip` characters belong to what was read before. -/
def StringForm.read (f : StringForm) (skip : Nat) : List Char → Option (List Char × Nat)
  | [] => none
  | c :: cs => match skip with
    | k + 1 => (f.read k cs).map fun (out, n) => (out, n + 1)
    | 0 => match f.step c cs with
      | .take d width => (f.read (width - 1) cs).map fun (out, n) => (d :: out, n + 1)
      | .skip width => (f.read (width - 1) cs).map fun (out, n) => (out, n + 1)
      | .close extra width => some (List.replicate extra f.quote, width)
      | .bad => none

/-- The string that starts with `quote`, whose rest is `cs`. A line end right after three quotes is
no part of a string. -/
def readString (quote : Char) (cs : List Char) : Option (TokenKind × Nat) :=
  let escapes := quote = '"'
  match cs with
  | q :: q' :: rest =>
    if q = quote && q' = quote then
      let trimmed := lineEnd rest
      (StringForm.read ⟨quote, true, escapes⟩ trimmed rest).map fun (out, n) =>
        (.quoted (String.ofList out) true, n + 2)
    else
      (StringForm.read ⟨quote, false, escapes⟩ 0 cs).map fun (out, n) =>
        (.quoted (String.ofList out) false, n)
  | _ =>
    (StringForm.read ⟨quote, false, escapes⟩ 0 cs).map fun (out, n) =>
      (.quoted (String.ofList out) false, n)

/-! ## Scanning -/

/-- The length of a comment after its mark, up to the end of the line. -/
def commentLength : List Char → Option Nat
  | [] => some 0
  | c :: cs =>
    if 0 < lineEnd (c :: cs) then some 0
    else if isTextChar c then (commentLength cs).map (· + 1)
    else none

/-- The token that starts with `c`, and how many of the following characters belong to it. -/
def TokenKind.read (c : Char) (cs : List Char) : Option (TokenKind × Nat) :=
  match c with
  | '\n' => some (.newline, 0)
  | '\r' => if lineEnd (c :: cs) = 2 then some (.newline, 1) else none
  | '#' => (commentLength cs).map (.comment, ·)
  | '.' => some (.dot, 0)
  | '=' => some (.equals, 0)
  | ',' => some (.comma, 0)
  | '[' => some (.openSquare, 0)
  | ']' => some (.closeSquare, 0)
  | '\x7b' => some (.openCurly, 0)
  | '\x7d' => some (.closeCurly, 0)
  | '"' => readString '"' cs
  | '\'' => readString '\'' cs
  | _ =>
    let same := if isBlank c then cs.takeWhile isBlank else cs.takeWhile isWordChar
    let raw := String.ofList (c :: same)
    some (if isBlank c then .blank raw else .word raw, same.length)

/-- The bytes of some characters. -/
def byteLength (cs : List Char) : Nat := cs.foldr (fun c n => c.utf8Size + n) 0

/-- The tokens of a text that starts at byte `pos`. `skip` characters belong to the token before. -/
def scan (pos skip : Nat) : List Char → Option (List Token)
  | [] => some []
  | c :: cs => match skip with
    | k + 1 => scan (pos + c.utf8Size) k cs
    | 0 => do
      let (kind, width) ← TokenKind.read c cs
      let rest ← scan (pos + c.utf8Size) width cs
      some (⟨kind, ⟨pos, pos + c.utf8Size + byteLength (cs.take width)⟩⟩ :: rest)

/-- The tokens of a text. A byte order mark at its start is passed over. -/
def tokens? (text : String) : Option (List Token) :=
  match text.toList with
  | '\ufeff' :: cs => scan 3 0 cs
  | cs => scan 0 0 cs

end Interconnect.Toml
