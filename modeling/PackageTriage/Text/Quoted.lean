import PackageTriage.Text.Hidden

/-!
# Quoted text

A text in double quotes, as messages show the values they complain about. Quotes, backslashes, tab,
carriage return, line feed and NUL are written with a backslash and every hidden character by its
number, so a quoted text stays on one line and shows exactly what it holds.
-/

namespace PackageTriage.Text

def hexDigits (n : Nat) : List Char := Nat.toDigits 16 n

def quoteChar (c : Char) : List Char :=
  if c = '\x00' then ['\\', '0']
  else if c = '\t' then ['\\', 't']
  else if c = '\r' then ['\\', 'r']
  else if c = '\n' then ['\\', 'n']
  else if c = '"' then ['\\', '"']
  else if c = '\\' then ['\\', '\\']
  else if isHidden c then ['\\', 'u', '\x7b'] ++ hexDigits c.toNat ++ ['\x7d']
  else [c]

def quoted (s : String) : String := String.ofList ('"' :: s.toList.flatMap quoteChar ++ ['"'])

end PackageTriage.Text
