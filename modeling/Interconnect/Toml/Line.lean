/-
The lines of a TOML document: headers, and keys with their values. Tokens are taken one by one; the
brackets that are open are kept on a stack, and a closing bracket turns what stands inside into a
value.
-/
import Interconnect.Toml.Token
import Interconnect.Toml.Value

namespace Interconnect.Toml

inductive Line where
  | assign (path : List Key) (key : Key) (value : Value)
  /-- A header. `many` tells one of an array of tables from one of a single table. -/
  | header (many : Bool) (path : List Key) (key : Key) (span : Span)
  deriving Repr

/-- How deep arrays and inline tables may be nested. -/
def nestingLimit : Nat := 80

/-! ## Keys and headers -/

def Token.isBlank (t : Token) : Bool :=
  match t.kind with
  | .blank _ => true
  | _ => false

/-- Drops elements from both ends of a list. -/
def trimBoth {α : Type} (p : α → Bool) (l : List α) : List α :=
  ((l.dropWhile p).reverse.dropWhile p).reverse

def isBareKey (raw : String) : Bool :=
  raw.toList.all fun c => c.isAlphanum || c = '_' || c = '-'

def Token.key? (t : Token) : Option Key :=
  match t.kind with
  | .word raw => if isBareKey raw then some ⟨raw, t.span⟩ else none
  | .quoted value false => some ⟨value, t.span⟩
  | _ => none

/-- Keys with dots between them. -/
def dottedKeys? : List Token → Option (List Key)
  | [] => none
  | [t] => t.key?.map ([·])
  | t :: dot :: rest =>
    if dot.kind = .dot then do some ((← t.key?) :: (← dottedKeys? rest)) else none

/-- A key behind the path to its table. -/
def keyPath? (ts : List Token) : Option (List Key × Key) := do
  let keys ← dottedKeys? (ts.filter (!Token.isBlank ·))
  if keys.length > nestingLimit then none else some (keys.dropLast, ← keys.getLast?)

/-- Takes tokens of the given kinds from both ends of a list. -/
def between? (opening closing : List TokenKind) (ts : List Token) : Option (List Token) :=
  let inner := ts.drop opening.length
  let rest := inner.take (inner.length - closing.length)
  if (ts.take opening.length).map Token.kind = opening &&
      (inner.drop (inner.length - closing.length)).map Token.kind = closing &&
      closing.length ≤ inner.length then some rest
  else none

def hull : List Token → Span
  | [] => {}
  | t :: rest => rest.foldl (fun s u => s.union u.span) t.span

/-- Reads a line that assigns nothing; an empty one gives no line. -/
def headerLine? (ts : List Token) : Option (List Line) :=
  let ts := trimBoth Token.isBlank ts
  if ts.isEmpty then some []
  else
    match between? [.openSquare, .openSquare] [.closeSquare, .closeSquare] ts with
    | some inner => do
      let (path, key) ← keyPath? inner
      some [.header true path key (hull ts)]
    | none => do
      let (path, key) ← keyPath? (← between? [.openSquare] [.closeSquare] ts)
      some [.header false path key (hull ts)]

/-! ## Values -/

/-- A part of a value: a token, or what stood in brackets. -/
inductive Piece where
  | token (t : Token)
  | value (v : Value)

namespace Piece

/-- Blanks, line ends and comments. -/
def isTrivia : Piece → Bool
  | token t =>
    match t.kind with
    | .blank _ => true
    | .newline => true
    | .comment => true
    | _ => false
  | value _ => false

def isToken (kind : TokenKind) : Piece → Bool
  | token t => t.kind = kind
  | value _ => false

def token? : Piece → Option Token
  | token t => some t
  | value _ => none

end Piece

/-- The text of a token that may be part of a bare value. -/
def Token.bareText? (t : Token) : Option String :=
  match t.kind with
  | .word raw => some raw
  | .dot => some "."
  | .blank raw => some raw
  | _ => none

/-- The value that some pieces make, with trivia around them. -/
def value? (pieces : List Piece) : Option Value :=
  match trimBoth Piece.isTrivia pieces with
  | [] => none
  | [.value v] => some v
  | trimmed => do
    let ts ← trimmed.mapM Piece.token?
    match ts with
    | [⟨.quoted text _, span⟩] => some (.string span text)
    | _ =>
      let raw ← ts.mapM Token.bareText?
      some (.ofScalar (hull ts) (← Scalar.read (String.join raw)))

/-- Splits a list at the elements that satisfy `p`. -/
def splitAtAll {α : Type} (p : α → Bool) : List α → List (List α)
  | [] => [[]]
  | a :: rest =>
    match splitAtAll p rest with
    | [] => [[a]]
    | part :: parts => if p a then [] :: part :: parts else (a :: part) :: parts

/-- The parts between commas. The last part may be empty: the last comma may have nothing after
it. -/
def commaParts (pieces : List Piece) : List (List Piece) :=
  let parts := splitAtAll (Piece.isToken .comma) pieces
  if (parts.getLast?.getD []).all Piece.isTrivia then parts.dropLast else parts

def entry? (pieces : List Piece) : Option (List Key × Key × Value) := do
  let isEquals := Piece.isToken .equals
  let left ← (trimBoth Piece.isTrivia (pieces.takeWhile (!isEquals ·))).mapM Piece.token?
  let (path, key) ← keyPath? left
  some (path, key, ← value? ((pieces.dropWhile (!isEquals ·)).drop 1))

inductive Bracket where
  | square
  | curly
  deriving DecidableEq

/-- The array or inline table that stands in brackets. -/
def Bracket.close? (b : Bracket) (span : Span) (pieces : List Piece) : Option Value :=
  match b with
  | .square => do some (.array span (← (commaParts pieces).mapM value?))
  | .curly => do
    let entries ← (commaParts pieces).mapM entry?
    let inner ← entries.foldlM (fun es (path, key, v) => Entries.assign es path key v) []
    some (.table span (entriesToValues inner))

/-! ## Reading tokens -/

/-- An open bracket: where it stands, and what came before it, the last piece first. -/
structure Frame where
  bracket : Bracket
  start : Nat
  before : List Piece

/-- Where a reader is: before the equals sign of a line, with its tokens, or behind the sign, with
the open brackets and the pieces since the innermost; the last one first. -/
inductive Phase where
  | left (ts : List Token)
  | right (path : List Key) (key : Key) (frames : List Frame) (pieces : List Piece)

structure Reader where
  lines : List Line := []
  phase : Phase := .left []

namespace Reader

/-- Ends a line. -/
def endLine? (r : Reader) : Option Reader :=
  match r.phase with
  | .left ts => do some ⟨(← headerLine? ts.reverse).reverse ++ r.lines, .left []⟩
  | .right path key [] pieces => do
    some ⟨.assign path key (← value? pieces.reverse) :: r.lines, .left []⟩
  | .right _ _ (_ :: _) _ => none

def openBracket? (r : Reader) (b : Bracket) (start : Nat) : Option Reader :=
  match r.phase with
  | .left _ => none
  | .right path key frames pieces =>
    if frames.length < nestingLimit then
      some { r with phase := .right path key (⟨b, start, pieces⟩ :: frames) [] }
    else none

def closeBracket? (r : Reader) (b : Bracket) (stop : Nat) : Option Reader :=
  match r.phase with
  | .right path key (frame :: frames) pieces =>
    if frame.bracket = b then do
      let v ← b.close? ⟨frame.start, stop⟩ pieces.reverse
      some { r with phase := .right path key frames (.value v :: frame.before) }
    else none
  | _ => none

/-- Takes a token of the value. -/
def takeRight? (r : Reader) (t : Token) : Option Reader :=
  match t.kind, r.phase with
  | .openSquare, _ => r.openBracket? .square t.span.start
  | .openCurly, _ => r.openBracket? .curly t.span.start
  | .closeSquare, _ => r.closeBracket? .square t.span.stop
  | .closeCurly, _ => r.closeBracket? .curly t.span.stop
  | .newline, .right _ _ [] _ => r.endLine?
  | _, .right path key frames pieces =>
    some { r with phase := .right path key frames (.token t :: pieces) }
  | _, .left _ => none

/-- Takes a token of the line before the equals sign. -/
def takeLeft? (r : Reader) (ts : List Token) (t : Token) : Option Reader :=
  match t.kind with
  | .newline => r.endLine?
  | .comment => some r
  | .equals => do
    let (path, key) ← keyPath? ts.reverse
    some { r with phase := .right path key [] [] }
  | _ => some { r with phase := .left (t :: ts) }

def take? (r : Reader) (t : Token) : Option Reader :=
  match r.phase with
  | .left ts => r.takeLeft? ts t
  | .right .. => r.takeRight? t

end Reader

/-- The lines that some tokens make. -/
def lines? (ts : List Token) : Option (List Line) := do
  let r ← ts.foldlM Reader.take? {}
  some (← r.endLine?).lines.reverse

end Interconnect.Toml
