import HeapTelemetry.Bytes

/-! The inside of JSON strings. Writing escapes quotes, backslashes and
controls; reading also takes the other escapes and refuses half surrogates. -/

namespace HeapTelemetry.Json

def hexDigit (n : Nat) : UInt8 := UInt8.ofNat (if n < 10 then 48 + n else 87 + n)

def hexValue? (b : UInt8) : Option Nat :=
  if 48 ≤ b && b ≤ 57 then some (b.toNat - 48)
  else if 97 ≤ b && b ≤ 102 then some (b.toNat - 87)
  else if 65 ≤ b && b ≤ 70 then some (b.toNat - 55)
  else none

/-- The letter that stands for a control byte after a backslash. -/
def shortEscape? (b : UInt8) : Option UInt8 :=
  match b.toNat with
  | 8 => some 98
  | 9 => some 116
  | 10 => some 110
  | 12 => some 102
  | 13 => some 114
  | _ => none

def escapeByte (b : UInt8) : Bytes :=
  if b = 34 ∨ b = 92 then [92, b]
  else if b < 32 then
    match shortEscape? b with
    | some letter => [92, letter]
    | none => [92, 117, 48, 48, hexDigit (b.toNat / 16), hexDigit (b.toNat % 16)]
  else [b]

def escape (b : Bytes) : Bytes := b.flatMap escapeByte

/-- What a letter after a backslash stands for. -/
def unescapeLetter? (b : UInt8) : Option UInt8 :=
  match b.toNat with
  | 34 => some 34
  | 92 => some 92
  | 47 => some 47
  | 98 => some 8
  | 102 => some 12
  | 110 => some 10
  | 114 => some 13
  | 116 => some 9
  | _ => none

def codeUnit? (a b c d : UInt8) : Option Nat := do
  some (4096 * (← hexValue? a) + 256 * (← hexValue? b) + 16 * (← hexValue? c) + (← hexValue? d))

/-- The UTF-8 bytes of a code point. -/
def encodePoint (n : Nat) : Bytes :=
  (if n < 0x80 then [n]
  else if n < 0x800 then [0xc0 + n / 64, 0x80 + n % 64]
  else if n < 0x10000 then [0xe0 + n / 4096, 0x80 + n / 64 % 64, 0x80 + n % 64]
  else [0xf0 + n / 262144, 0x80 + n / 4096 % 64, 0x80 + n / 64 % 64, 0x80 + n % 64]).map UInt8.ofNat

def isHighSurrogate (n : Nat) : Bool := 0xd800 ≤ n && n < 0xdc00
def isLowSurrogate (n : Nat) : Bool := 0xdc00 ≤ n && n < 0xe000

/-- The bytes that a string's inside stands for. A high surrogate must be
followed by a low one. -/
def unescape? : Bytes → Option Bytes
  | [] => some []
  | 92 :: 117 :: a :: b :: c :: d :: rest => do
    let n ← codeUnit? a b c d
    if isLowSurrogate n then none
    else if isHighSurrogate n then
      match rest with
      | 92 :: 117 :: a' :: b' :: c' :: d' :: rest => do
        let m ← codeUnit? a' b' c' d'
        if isLowSurrogate m then
          return encodePoint (0x10000 + 1024 * (n - 0xd800) + (m - 0xdc00)) ++ (← unescape? rest)
        else none
      | _ => none
    else return encodePoint n ++ (← unescape? rest)
  | 92 :: letter :: rest => do
    return (← unescapeLetter? letter) :: (← unescape? rest)
  | b :: rest => if b = 92 then none else (unescape? rest).map (b :: ·)

/-- The text that a string's inside stands for. -/
def text? (raw : Bytes) : Option String := (unescape? raw).bind Bytes.text?

/-- The inside of a string with this text. -/
def ofText (s : String) : Bytes := escape (Bytes.ofText s)

end HeapTelemetry.Json
