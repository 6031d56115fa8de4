import OwnershipRegistry.Json.Doc

/-!
Reading JSON text. The reader takes a value off the front of a text and gives
what the text says up to the first place where it is no JSON, so that whoever
looks at the value in order meets that place in order too. Nothing is read after
that place.
-/

namespace OwnershipRegistry.Json

def isSpace (c : Char) : Bool := c == ' ' || c == '\n' || c == '\t' || c == '\r'

def skipSpace (cs : List Char) : List Char := cs.dropWhile isSpace

/-- The rest of a text after a word at its front. -/
def afterWord? : List Char → List Char → Option (List Char)
  | [], cs => some cs
  | w :: ws, c :: cs => if w = c then afterWord? ws cs else none
  | _ :: _, [] => none

def readWord (word : String) (d : Doc) (cs : List Char) : Doc × List Char :=
  match afterWord? word.toList cs with
  | some rest => (d, rest)
  | none => (.broken, [])

def readString (cs : List Char) : Option (Option String × List Char) :=
  (readUnits cs).map fun (us, rest) => ((joinUnits us).map String.ofList, rest)

namespace Doc

mutual

/-- Reads a value. Every character takes at most two steps of the fuel. -/
def readWith : Nat → List Char → Doc × List Char
  | 0, _ => (broken, [])
  | fuel + 1, cs =>
    match skipSpace cs with
    | [] => (broken, [])
    | '"' :: rest =>
      match readString rest with
      | some (s, rest) => (string s, rest)
      | none => (broken, [])
    | '[' :: rest =>
      match skipSpace rest with
      | ']' :: rest => (array [] true, rest)
      | rest =>
        let (items, closed, rest) := readItems fuel rest
        (array items closed, rest)
    | '\x7b' :: rest =>
      match skipSpace rest with
      | '\x7d' :: rest => (object [] true, rest)
      | rest =>
        let (members, closed, rest) := readMembers fuel rest
        (object members closed, rest)
    | 'n' :: rest => readWord "ull" null rest
    | 't' :: rest => readWord "rue" (bool true) rest
    | 'f' :: rest => readWord "alse" (bool false) rest
    | c :: rest =>
      match Numeral.read (c :: rest) with
      | some (n, rest) => (number n, rest)
      | none => (broken, [])

/-- Reads the items of an array up to its end; the flag tells whether it has
one. -/
def readItems : Nat → List Char → List Doc × Bool × List Char
  | 0, _ => ([], false, [])
  | fuel + 1, cs =>
    match skipSpace cs with
    | [] => ([], false, [])
    | ']' :: _ => ([], false, [])
    | cs =>
      let (d, rest) := readWith fuel cs
      match skipSpace rest with
      | ']' :: rest => ([d], true, rest)
      | ',' :: rest =>
        let (ds, closed, rest) := readItems fuel rest
        (d :: ds, closed, rest)
      | _ => ([d], false, [])

/-- Reads the members of an object up to its end; the flag tells whether it has
one. What is no key ends the members. -/
def readMembers : Nat → List Char → List (Doc × Doc) × Bool × List Char
  | 0, _ => ([], false, [])
  | fuel + 1, cs =>
    let (key, rest) := readWith fuel cs
    match key.isKey, skipSpace rest with
    | true, ':' :: rest =>
      let (d, rest) := readWith fuel rest
      match skipSpace rest with
      | '\x7d' :: rest => ([(key, d)], true, rest)
      | ',' :: rest =>
        let (ms, closed, rest) := readMembers fuel rest
        ((key, d) :: ms, closed, rest)
      | _ => ([(key, d)], false, [])
    | _, _ => ([(key, broken)], false, [])

end

/-- Reads the value at the front of some characters and gives the rest. -/
def read (cs : List Char) : Doc × List Char := readWith (2 * cs.length + 2) cs

end Doc

end OwnershipRegistry.Json
