import LineShell.Text.Printable

/-!
# Quoted text

Text between quotes, on one line and in visible characters.  Single quotes are used unless the text
holds a single quote and no double one.  Inside, the quote in use and the backslash are written
after a backslash, the tab, line feed and carriage return by a letter, and any other code point
without a visible form by its number in hexadecimal digits: two, four or eight of them, as few as
hold it.
-/

namespace LineShell.Text.Quoted

def mark (t : Text) : CodePoint :=
  if t.contains 0x27 && !t.contains 0x22 then 0x22 else 0x27

/-- The last `width` hexadecimal digits of a number, in lower case. -/
def hexDigits (width : Nat) (n : Nat) : Text :=
  (List.range width).map fun i =>
    CodePoint.ofChar (Nat.digitChar (n / Nat.pow 16 (width - 1 - i) % 16))

def encodePoint (quote : CodePoint) (c : CodePoint) : Text :=
  if c = quote || c = 0x5C then [0x5C, c]
  else if c = 0x09 then "\\t"
  else if c = 0x0A then "\\n"
  else if c = 0x0D then "\\r"
  else if isPrintable c then [c]
  else if c.val < 0x100 then "\\x" ++ hexDigits 2 c.val
  else if c.val < 0x10000 then "\\u" ++ hexDigits 4 c.val
  else "\\U" ++ hexDigits 8 c.val

def encode (t : Text) : Text :=
  [mark t] ++ t.flatMap (encodePoint (mark t)) ++ [mark t]

end LineShell.Text.Quoted
