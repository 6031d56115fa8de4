import OwnershipRegistry.Toml.Reader
import OwnershipRegistry.Text.Utf8
import OwnershipRegistry.Wire.Config

/-!
Configurations in TOML. The outermost table of a text is read as the fields of a
configuration, in the order of its entries.
-/

namespace OwnershipRegistry

open Wire

def Toml.Value.found : Toml.Value → Found
  | text s => .string s
  | integer n => .integer n
  | float x => .float x.text
  | boolean b => .flag b
  | moment => .map
  | array _ => .sequence
  | inline _ => .map
  | table .. => .map
  | tables _ => .sequence

/-- What is found at the path of a configuration file. -/
inductive ConfigFile
  | absent
  | directory
  | octets (content : List UInt8)
  deriving DecidableEq, Repr

inductive Unreadable
  | absent
  | directory
  | notText
  deriving DecidableEq, Repr

/-- The wording of what makes a configuration file unreadable. -/
def Unreadable.message (u : Unreadable) : String :=
  "config io error: " ++ match u with
    | absent => "No such file or directory (os error 2)"
    | directory => "Is a directory (os error 21)"
    | notText => "stream did not contain valid UTF-8"

inductive ConfigFault
  | unreadable (u : Unreadable)
  | unfit (f : Failure)
  deriving DecidableEq, Repr

namespace StoreConfig

def ofToml (s : String) : Except Failure StoreConfig :=
  match Toml.entries? s with
  | none => .error .syntaxError
  | some es => ofFields (es.map fun e => (e.1, e.2.found))

def load : ConfigFile → Except ConfigFault StoreConfig
  | .absent => .error (.unreadable .absent)
  | .directory => .error (.unreadable .directory)
  | .octets content =>
    match Utf8.decode content with
    | .ok s => (ofToml s).mapError .unfit
    | .error _ => .error (.unreadable .notText)

end StoreConfig

end OwnershipRegistry
