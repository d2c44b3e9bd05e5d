/-! The characters of a document with their places, and what stands between its
values: blanks, comments and line breaks. -/

namespace HeapTelemetry.Yaml

/-- A character and where it stands. Lines and columns count from zero, and the
offset counts bytes. -/
structure Place where
  char : Char
  line : Nat
  column : Nat
  offset : Nat
  deriving Repr

def isBlank (c : Char) : Bool := c = ' ' || c = '\t'

/-- The characters that end a line. -/
def isBreak (c : Char) : Bool :=
  c = '\n' || c = '\r' || c = '\u0085' || c = '\u2028' || c = '\u2029'

/-- Controls may only stand in a document as tabs and line breaks. -/
def isAllowed (c : Char) : Bool :=
  isBreak c || c = '\t' || (' ' ≤ c && c ≤ '~') || ('\u00a0' ≤ c && c ≠ '\ufffe' && c ≠ '\uffff')

/-- A line break as it is kept: the separators of lines and paragraphs stay, any
other one becomes a newline. -/
def keptBreak (c : Char) : Char := if c = '\u2028' || c = '\u2029' then c else '\n'

/-- Gives every character its place. A return and a newline after it are one
break. -/
def placesFrom (line column offset : Nat) : List Char → List Place
  | [] => []
  | '\r' :: '\n' :: rest => ⟨'\n', line, column, offset⟩ :: placesFrom (line + 1) 0 (offset + 2) rest
  | c :: rest =>
    if isBreak c then
      ⟨keptBreak c, line, column, offset⟩ :: placesFrom (line + 1) 0 (offset + c.utf8Size) rest
    else ⟨c, line, column, offset⟩ :: placesFrom line (column + 1) (offset + c.utf8Size) rest

/-- The characters of a document that holds only allowed ones. -/
def places? (document : String) : Option (List Place) :=
  if document.toList.all isAllowed then some (placesFrom 0 0 0 document.toList) else none

/-- Passes over blanks, comments and line breaks. `fresh` tells that nothing but
blanks stands on the line so far; there a tab is no blank, unless in brackets. A
byte order mark may stand in front of a line. -/
def skip (inBrackets : Bool) : (fresh inComment : Bool) → List Place → Bool × List Place
  | fresh, _, [] => (fresh, [])
  | fresh, inComment, p :: rest =>
    if isBreak p.char then skip inBrackets (fresh || !inBrackets) false rest
    else if inComment || p.char = '#' then skip inBrackets fresh true rest
    else if p.char = ' ' || (p.char = '\t' && (inBrackets || !fresh))
        || (p.char = '\ufeff' && p.column = 0) then
      skip inBrackets fresh false rest
    else (fresh, p :: rest)

/-- What follows the blanks, comments and line breaks inside brackets. -/
def skipInside (s : List Place) : List Place := (skip true false false s).2

/-- Whether a character stands alone before this. -/
def endsWord : List Place → Bool
  | [] => true
  | p :: _ => isBlank p.char || isBreak p.char

/-- Whether a line starts with the mark that divides documents. -/
def atMarker : List Place → Bool
  | p :: q :: r :: rest =>
    p.column = 0 && (p.char = '-' || p.char = '.') && q.char = p.char && r.char = p.char && endsWord rest
  | _ => false

/-- A key and its colon stand on one line, not too far apart. -/
def mayEndKey (start colon : Place) : Bool :=
  colon.char = ':' && start.line = colon.line && colon.offset ≤ start.offset + 1024

end HeapTelemetry.Yaml
