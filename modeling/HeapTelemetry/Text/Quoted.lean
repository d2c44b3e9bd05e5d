import HeapTelemetry.Text.Printable

/-! Text between double quotes, as it stands in messages. -/

namespace HeapTelemetry.Text

/-- Quotes, backslashes and the common controls have short escapes; what is
not printable is given by its code point in braces. -/
def quotedChar (c : Char) : List Char :=
  if c = '"' ∨ c = '\\' then ['\\', c]
  else if c = '\n' then ['\\', 'n']
  else if c = '\r' then ['\\', 'r']
  else if c = '\t' then ['\\', 't']
  else if c = '\x00' then ['\\', '0']
  else if isPrintable c then [c]
  else '\\' :: 'u' :: '{' :: Nat.toDigits 16 c.toNat ++ ['}']

def quoted (s : String) : String := String.ofList ('"' :: s.toList.flatMap quotedChar ++ ['"'])

end HeapTelemetry.Text
