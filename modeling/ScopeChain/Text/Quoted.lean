import ScopeChain.Text.Hidden

/-!
Quoted texts.  A quoted text stands between two double quotes; in it a double quote and a backslash
have a backslash before them, four common controls have a letter, and every other hidden character
is written by its code point in hexadecimal.
-/

namespace ScopeChain.Text

/-- The code point of a character in hexadecimal, between braces, after `\u`. -/
def codePointEscape (c : Char) : List Char :=
  ['\\', 'u', '\x7b'] ++ Nat.toDigits 16 c.toNat ++ ['\x7d']

/-- How one character is written inside a quoted text. -/
def escape (c : Char) : List Char :=
  if c = '"' then ['\\', '"']
  else if c = '\\' then ['\\', '\\']
  else if c = '\n' then ['\\', 'n']
  else if c = '\r' then ['\\', 'r']
  else if c = '\t' then ['\\', 't']
  else if c = '\x00' then ['\\', '0']
  else if isHidden c then codePointEscape c
  else [c]

/-- The text between double quotes, each of its characters escaped where it has to be. -/
def quote (text : String) : String :=
  String.ofList ('"' :: text.toList.flatMap escape ++ ['"'])

@[simp] theorem toList_quote (text : String) :
    (quote text).toList = '"' :: text.toList.flatMap escape ++ ['"'] := by
  simp [quote]

end ScopeChain.Text
