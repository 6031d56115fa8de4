import OwnershipRegistry.Json.Numeral
import OwnershipRegistry.Json.Quote

/-!
JSON values as they are found in a text. A text may break off or go wrong; what
comes before is still a value, whose last open array or object is not closed or
whose last part is `broken`. Members keep their order and their repetitions, and
what stands in the place of a key is kept as it is.
-/

namespace OwnershipRegistry.Json

/-- A JSON value, as far as its text goes. -/
inductive Doc
  | null
  | bool (b : Bool)
  | number (n : Numeral)
  /-- A string, or none if half of a surrogate pair stands alone in it. -/
  | string (s : Option String)
  | array (items : List Doc) (closed : Bool)
  | object (members : List (Doc × Doc)) (closed : Bool)
  | broken
  deriving Repr, Inhabited

namespace Doc

def ofString (s : String) : Doc := string (some s)

def ofList (items : List Doc) : Doc := array items true

def record (members : List (String × Doc)) : Doc :=
  object (members.map fun m => (ofString m.1, m.2)) true

mutual

def render : Doc → List Char
  | null => "null".toList
  | bool b => (if b then "true" else "false").toList
  | number n => n.text
  | string s => quote (s.getD "")
  | array items _ => '[' :: renderItems items ++ [']']
  | object members _ => '\x7b' :: renderMembers members ++ ['\x7d']
  | broken => []

def renderItems : List Doc → List Char
  | [] => []
  | [d] => render d
  | d :: e :: ds => render d ++ ',' :: renderItems (e :: ds)

def renderMembers : List (Doc × Doc) → List Char
  | [] => []
  | [(k, d)] => render k ++ ':' :: render d
  | (k, d) :: m :: ms => render k ++ ':' :: render d ++ ',' :: renderMembers (m :: ms)

end

def text (d : Doc) : String := String.ofList d.render

def isKey : Doc → Bool
  | string _ => true
  | _ => false

mutual

/-- Whether the text of a value is whole, be there lone halves of surrogate
pairs in it or numerals out of range. -/
def isWhole : Doc → Bool
  | broken => false
  | array items closed => closed && areWhole items
  | object members closed => closed && membersAreWhole members
  | _ => true

def areWhole : List Doc → Bool
  | [] => true
  | d :: ds => isWhole d && areWhole ds

def membersAreWhole : List (Doc × Doc) → Bool
  | [] => true
  | (k, d) :: ms => isKey k && isWhole d && membersAreWhole ms

end

mutual

/-- Whether a value can be kept for later: it is whole, all of it can be read,
and arrays and objects lie in each other at most to a depth. -/
def isKept (depth : Nat) : Doc → Bool
  | broken => false
  | number n => n.value?.isSome
  | string s => s.isSome
  | array items closed => 0 < depth && closed && areKept (depth - 1) items
  | object members closed => 0 < depth && closed && membersAreKept (depth - 1) members
  | _ => true

def areKept (depth : Nat) : List Doc → Bool
  | [] => true
  | d :: ds => isKept depth d && areKept depth ds

def membersAreKept (depth : Nat) : List (Doc × Doc) → Bool
  | [] => true
  | (k, d) :: ms => isKey k && isKept depth k && isKept depth d && membersAreKept depth ms

end

end Doc

end OwnershipRegistry.Json
