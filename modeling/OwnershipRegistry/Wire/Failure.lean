import OwnershipRegistry.Text.Quoted
import OwnershipRegistry.Time.Scan

/-!
Why a written record cannot be read. Either the text is at fault, or the text is
sound and does not fit the record; then the failure tells what was found, or
which field or variant is the matter.
-/

namespace OwnershipRegistry.Wire

/-- What is found where something else was expected. -/
inductive Found
  | null
  | flag (b : Bool)
  | integer (n : Int)
  /-- A number that is no integer, as it is written in messages. -/
  | float (text : String)
  | string (s : String)
  | sequence
  | map
  deriving DecidableEq, Repr

def Found.text : Found → String
  | null => "null"
  | flag b => "boolean `" ++ (if b then "true" else "false") ++ "`"
  | integer n => "integer `" ++ toString n ++ "`"
  | float text => "floating point `" ++ text ++ "`"
  | string s => "string " ++ quoted s
  | sequence => "sequence"
  | map => "map"

inductive Misfit
  | missingField (name : String)
  | duplicateField (name : String)
  | unknownField (name : String) (known : List String)
  | unknownVariant (name : String) (known : List String)
  | wrongLength (n : Nat) (expected : String)
  | wrongType (found : Found) (expected : String)
  | wrongValue (found : Found) (expected : String)
  | notInstant (reason : Refusal)
  deriving DecidableEq, Repr

def ticked (s : String) : String := "`" ++ s ++ "`"

/-- The names that would have been right. -/
def oneOf : List String → String
  | [a, b] => ticked a ++ " or " ++ ticked b
  | names => "one of " ++ ", ".intercalate (names.map ticked)

def Misfit.message : Misfit → String
  | missingField name => "missing field " ++ ticked name
  | duplicateField name => "duplicate field " ++ ticked name
  | unknownField name known => "unknown field " ++ ticked name ++ ", expected " ++ oneOf known
  | unknownVariant name known =>
    "unknown variant " ++ ticked name ++ ", expected " ++ oneOf known
  | wrongLength n expected => "invalid length " ++ toString n ++ ", expected " ++ expected
  | wrongType found expected => "invalid type: " ++ found.text ++ ", expected " ++ expected
  | wrongValue found expected => "invalid value: " ++ found.text ++ ", expected " ++ expected
  | notInstant reason => reason.message

inductive Failure
  | syntaxError
  | misfit (m : Misfit)
  deriving DecidableEq, Repr

end OwnershipRegistry.Wire
