import DocumentStore.Text.Printable

/-! # Quoted texts in messages

A text quoted in a message stands between double quotes. Quotes, backslashes and five control
characters get a short escape, any other character that does not print as itself is given by its
hexadecimal code point, and the rest stands as it is. -/

namespace DocumentStore.Text

def hexDigits (n : Nat) : List Char := Nat.toDigits 16 n

/-- One character as it stands inside a quoted text. -/
def quoteChar (c : Char) : List Char :=
  if c = '"' then ['\\', '"']
  else if c = '\\' then ['\\', '\\']
  else if c = '\n' then ['\\', 'n']
  else if c = '\r' then ['\\', 'r']
  else if c = '\t' then ['\\', 't']
  else if c = '\x00' then ['\\', '0']
  else if isPrintable c then [c]
  else ['\\', 'u', '\x7b'] ++ hexDigits c.toNat ++ ['\x7d']

def quote (s : String) : String :=
  String.ofList ('"' :: s.toList.flatMap quoteChar ++ ['"'])

end DocumentStore.Text
