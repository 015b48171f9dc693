import KeyEnvelope.Text.Visible

/-!
# Quoted texts

Texts as they stand in descriptions for diagnosis: in double quotes, with a backslash
before quotes and backslashes, letters for the common controls, and the number of every
other character that does not show.
-/

namespace KeyEnvelope.Text

/-- A character inside a quoted text. -/
def quoteChar (c : Char) : List Char :=
  match c with
  | '"' => ['\\', '"']
  | '\\' => ['\\', '\\']
  | '\n' => ['\\', 'n']
  | '\r' => ['\\', 'r']
  | '\t' => ['\\', 't']
  | '\x00' => ['\\', '0']
  | c =>
    if isVisible c then [c]
    else '\\' :: 'u' :: '\x7b' :: (Nat.toDigits 16 c.toNat ++ ['\x7d'])

/-- A text in quotes. -/
def quote (text : String) : String :=
  String.ofList ('"' :: text.toList.flatMap quoteChar ++ ['"'])

end KeyEnvelope.Text
