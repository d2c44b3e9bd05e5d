import HeapTelemetry.Text.Numeral
import HeapTelemetry.Yaml.Place

/-! Scalars, in quotes and without. One that goes on over several lines is read
as if it stood on one. -/

namespace HeapTelemetry.Yaml

/-- Blanks or line breaks inside a scalar, the latest one first. The blanks
around line breaks are dropped. `first` is the break that ended the line, unless
a backslash stood before it. -/
inductive Gap
  | blanks (run : List Char)
  | breaks (first : Option Char) (more : List Char)

namespace Gap

def none : Gap := blanks []

def isNone : Gap → Bool
  | blanks [] => true
  | _ => false

def hasBreak : Gap → Bool
  | blanks _ => false
  | breaks _ _ => true

def add : Gap → Char → Gap
  | blanks run, c => if isBreak c then breaks (some c) [] else blanks (c :: run)
  | breaks first more, c => if isBreak c then breaks first (c :: more) else breaks first more

/-- What a gap stands for, backwards: a single newline is a blank, and of several
the first one is dropped. -/
def text : Gap → List Char
  | blanks run => run
  | breaks (some '\n') [] => [' ']
  | breaks (some '\n') more => more
  | breaks (some c) more => more ++ [c]
  | breaks Option.none more => more

end Gap

/-- What a letter after a backslash stands for. -/
def escapes : List (Char × Nat) :=
  [('0', 0), ('a', 7), ('b', 8), ('t', 9), ('\t', 9), ('n', 10), ('v', 11), ('f', 12), ('r', 13), ('e', 27),
   (' ', 32), ('"', 34), ('/', 47), ('\\', 92), ('N', 0x85), ('_', 0xa0), ('L', 0x2028), ('P', 0x2029)]

/-- Digits of the code after these letters. -/
def codeLength? : Char → Option Nat
  | 'x' => some 2
  | 'u' => some 4
  | 'U' => some 8
  | _ => none

/-- How far an escape in double quotes has been read. -/
inductive Escape
  | outside
  | started
  | code (left value : Nat)

/-- The text up to the closing double quote, and what follows it. `done` is the
text so far, backwards. -/
def doubleQuoted? : Escape → (done : List Char) → Gap → List Place → Option (List Char × List Place)
  | _, _, _, [] => none
  | .outside, done, gap, p :: rest =>
    if isBlank p.char || isBreak p.char then doubleQuoted? .outside done (gap.add p.char) rest
    else if atMarker (p :: rest) then none
    else
      let done := gap.text ++ done
      if p.char = '"' then some (done.reverse, rest)
      else if p.char = '\\' then doubleQuoted? .started done Gap.none rest
      else doubleQuoted? .outside (p.char :: done) Gap.none rest
  | .started, done, gap, p :: rest =>
    if isBreak p.char then doubleQuoted? .outside done (.breaks none []) rest
    else match codeLength? p.char, escapes.lookup p.char with
      | some n, _ => doubleQuoted? (.code n 0) done gap rest
      | none, some x => doubleQuoted? .outside (Char.ofNat x :: done) gap rest
      | none, none => none
  | .code left value, done, gap, p :: rest =>
    match Text.hexValue? p.char with
    | none => none
    | some digit =>
      let value := 16 * value + digit
      if 1 < left then doubleQuoted? (.code (left - 1) value) done gap rest
      else if value.isValidChar then doubleQuoted? .outside (Char.ofNat value :: done) gap rest
      else none

/-- The text up to the closing single quote, and what follows it. A quote inside
is doubled; `quote` tells that one was read. -/
def singleQuoted? (quote : Bool) (done : List Char) (gap : Gap) :
    List Place → Option (List Char × List Place)
  | [] => if quote then some (done.reverse, []) else none
  | p :: rest =>
    if p.char = '\'' then
      if quote then singleQuoted? false ('\'' :: done) gap rest
      else singleQuoted? true (gap.text ++ done) Gap.none rest
    else if quote then some (done.reverse, p :: rest)
    else if isBlank p.char || isBreak p.char then singleQuoted? false done (gap.add p.char) rest
    else if atMarker (p :: rest) then none
    else singleQuoted? false (p.char :: gap.text ++ done) Gap.none rest

/-- What sets values apart inside brackets. -/
def delimiters : List Char := [',', '[', ']', '{', '}']

/-- Other characters that have a meaning at the start of a value. -/
def indicators : List Char := ['#', '&', '*', '!', '|', '>', '\'', '"', '%', '@', '\x60']

/-- Whether a plain scalar may start so. -/
def startsPlain (inBrackets : Bool) : List Place → Bool
  | [] => false
  | p :: rest =>
    if atMarker (p :: rest) || isBlank p.char || isBreak p.char then false
    else if p.char = '-' then !endsWord rest
    else if p.char = '?' || p.char = ':' then !inBrackets && !endsWord rest
    else !delimiters.contains p.char && !indicators.contains p.char

/-- Whether a plain scalar ends before this, with a gap in between. Outside
brackets its lines start at a column from `floor` on. -/
def endsPlain (inBrackets : Bool) (floor : Nat) (gap : Gap) : List Place → Bool
  | [] => true
  | p :: rest =>
    atMarker (p :: rest) || (p.char = '#' && !gap.isNone) || (p.char = ':' && endsWord rest)
      || (if inBrackets then delimiters.contains p.char else !gap.isNone && p.column < floor)

/-- Whether a colon inside brackets is followed by what may not stand there. -/
def isStrayColon (p : Place) : List Place → Bool
  | [] => false
  | q :: _ => p.char = ':' && (q.char = '?' || delimiters.contains q.char)

/-- The text of a plain scalar, whether a line has ended after it, and what
follows. Tabs do not indent its lines. -/
def plain? (inBrackets : Bool) (floor : Nat) (done : List Char) (gap : Gap) :
    List Place → Option (List Char × Bool × List Place)
  | [] => some (done.reverse, gap.hasBreak, [])
  | p :: rest =>
    if isBlank p.char || isBreak p.char then
      if p.char = '\t' && gap.hasBreak && p.column < floor then none
      else plain? inBrackets floor done (gap.add p.char) rest
    else if endsPlain inBrackets floor gap (p :: rest) then some (done.reverse, gap.hasBreak, p :: rest)
    else if inBrackets && isStrayColon p rest then none
    else plain? inBrackets floor (p.char :: gap.text ++ done) Gap.none rest

end HeapTelemetry.Yaml
