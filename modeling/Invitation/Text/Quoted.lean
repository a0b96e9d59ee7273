import Invitation.Text.Hidden

/-!
# Quoted texts

How a text is shown inside a description: between quotes, with a backslash before quotes and
backslashes, short forms for the usual control characters, and everything else that does not show
as itself by its number.
-/

namespace Invitation.Text

/-- A number in lower-case hexadecimal, without leading zeros. -/
def hexadecimal (n : Nat) : String := String.ofList (Nat.toDigits 16 n)

/-- How a character is shown between quotes. -/
def escaped (c : Char) : String :=
  if c = '"' then "\\\""
  else if c = '\\' then "\\\\"
  else if c = '\n' then "\\n"
  else if c = '\r' then "\\r"
  else if c = '\t' then "\\t"
  else if c = '\x00' then "\\0"
  else if isHidden c then "\\u\x7b" ++ hexadecimal c.toNat ++ "\x7d"
  else c.toString

/-- A text between quotes. -/
def quoted (s : String) : String :=
  "\"" ++ s.toList.foldl (fun shown c => shown ++ escaped c) "" ++ "\""

-- a letter shows as itself with its accent, but not if the accent is a character of its own
example : quoted "\u00e9e\u0301" = "\"\u00e9e\\u\x7b301\x7d\"" := by decide +kernel

-- a control beyond ASCII, a space without width, and a wave
example :
    quoted "\u0085\u200b\t👋" = "\"\\u\x7b85\x7d\\u\x7b200b\x7d\\t👋\"" := by
  decide +kernel

end Invitation.Text
