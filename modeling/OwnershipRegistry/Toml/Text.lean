import OwnershipRegistry.Text.Hex
import OwnershipRegistry.Toml.Lexeme

/-!
Texts of TOML: between double quotes with escapes or between single quotes as
they are, in one line or, between triple quotes, in several. A line end in a
text is a line feed, however it is written.
-/

namespace OwnershipRegistry.Toml

/-- The character of a code point in hexadecimal digits. -/
def codePoint? (ds : List Char) : Option Char := do
  let n := (← ds.mapM hexValue?).foldl (fun n d => 16 * n + d) 0
  if n.isValidChar then return Char.ofNat n else none

/-- The character that a letter after a backslash stands for. -/
def shortEscape? : Char → Option Char
  | '"' => some '"'
  | '\\' => some '\\'
  | 'b' => some '\x08'
  | 'f' => some '\x0c'
  | 'n' => some '\n'
  | 'r' => some '\r'
  | 't' => some '\t'
  | _ => none

/-- Puts a character in front of what was read. -/
def cons? (c : Option Char) (r : Option (List Char × List Char)) :
    Option (List Char × List Char) := do
  let c ← c
  let (cs, rest) ← r
  return (c :: cs, rest)

/-- The rest of a text after its opening double quote. -/
def escapedText : Reader (List Char)
  | [] => none
  | '"' :: rest => some ([], rest)
  | '\\' :: 'u' :: a :: b :: c :: d :: rest =>
    cons? (codePoint? [a, b, c, d]) (escapedText rest)
  | '\\' :: 'U' :: a :: b :: c :: d :: e :: f :: g :: h :: rest =>
    cons? (codePoint? [a, b, c, d, e, f, g, h]) (escapedText rest)
  | '\\' :: c :: rest => cons? (shortEscape? c) (escapedText rest)
  | c :: rest => if c ≠ '\\' ∧ isPlain c then cons? (some c) (escapedText rest) else none

/-- The rest of a text after its opening single quote. -/
def literalText : Reader (List Char)
  | [] => none
  | '\'' :: rest => some ([], rest)
  | c :: rest => if isPlain c then cons? (some c) (literalText rest) else none

/-- Up to two quotes directly before the closing ones belong to the text. -/
def quotesBeforeEnd (q : Char) : List Char → List Char × List Char
  | a :: b :: rest =>
    if a = q ∧ b = q then ([q, q], rest)
    else if a = q then ([q], b :: rest)
    else ([], a :: b :: rest)
  | [a] => if a = q then ([q], []) else ([], [a])
  | [] => ([], [])

/-- The rest of a text of several lines after its opening double quotes. A
backslash at the end of a line leaves out all blanks and line ends that follow;
the flag tells that this goes on. -/
def escapedLines (skips : Bool) : Reader (List Char)
  | [] => none
  | '"' :: '"' :: '"' :: rest => some (quotesBeforeEnd '"' rest)
  | '\\' :: 'u' :: a :: b :: c :: d :: rest =>
    cons? (codePoint? [a, b, c, d]) (escapedLines false rest)
  | '\\' :: 'U' :: a :: b :: c :: d :: e :: f :: g :: h :: rest =>
    cons? (codePoint? [a, b, c, d, e, f, g, h]) (escapedLines false rest)
  | '\\' :: c :: rest =>
    if (lineEnd? (skipSpace (c :: rest))).isSome then escapedLines true (c :: rest)
    else cons? (shortEscape? c) (escapedLines false rest)
  | '\r' :: '\n' :: rest =>
    if skips then escapedLines true rest else cons? (some '\n') (escapedLines false rest)
  | c :: rest =>
    if skips ∧ (isSpace c ∨ c = '\n') then escapedLines true rest
    else if c ≠ '\\' ∧ (isPlain c ∨ c = '\n') then cons? (some c) (escapedLines false rest)
    else none

/-- The rest of a text of several lines after its opening single quotes. -/
def literalLines : Reader (List Char)
  | [] => none
  | '\'' :: '\'' :: '\'' :: rest => some (quotesBeforeEnd '\'' rest)
  | '\r' :: '\n' :: rest => cons? (some '\n') (literalLines rest)
  | c :: rest => if isPlain c ∨ c = '\n' then cons? (some c) (literalLines rest) else none

/-- A line end directly after the opening quotes is no part of the text. -/
def afterOpening (cs : List Char) : List Char := (lineEnd? cs).getD cs

/-- A text that begins with a quote. -/
def text (cs : List Char) : Option (String × List Char) := do
  let (cs, rest) ← match cs with
    | '"' :: '"' :: '"' :: rest => escapedLines false (afterOpening rest)
    | '"' :: rest => escapedText rest
    | '\'' :: '\'' :: '\'' :: rest => literalLines (afterOpening rest)
    | '\'' :: rest => literalText rest
    | _ => none
  return (String.ofList cs, rest)

end OwnershipRegistry.Toml
