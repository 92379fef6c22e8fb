import SafeAlter.Text.Search

/-! # Masking secrets

Passwords are masked in what is shown of a tool's arguments and output. In arguments they are told
by their place: after `-p`, after `--password=`, or in the `p` field of an argument that is a list
of fields `k=v` with keys of one letter. In an output every occurrence of the secret is masked.
-/
namespace SafeAlter
open SafeAlter.Text

def mask : List Char := "***".toList

/-- Whether a text is `k=v` for a key of one byte. -/
def isField (field : List Char) : Bool :=
  match cutFirst '=' field with
  | some ([key], _) => key.toNat < 0x80
  | _ => false

def fieldsOf (argument : List Char) : List (List Char) :=
  argument.splitOnP (· == ',')

def isFieldList (argument : List Char) : Bool :=
  (fieldsOf argument).all isField

def maskField (field : List Char) : List Char :=
  if "p=".toList.isPrefixOf field then "p=".toList ++ mask else field

def maskArgumentChars (argument : List Char) : List Char :=
  if "--password=".toList.isPrefixOf argument then "--password=".toList ++ mask
  else if "-p".toList.isPrefixOf argument && argument.length > 2 then "-p".toList ++ mask
  else if !(['-'].isPrefixOf argument) && isFieldList argument then
    [','].intercalate ((fieldsOf argument).map maskField)
  else argument

def maskArgument (argument : String) : String :=
  String.ofList (maskArgumentChars argument.toList)

/-- A tool's output with the secret in it masked; an empty secret is none. -/
def maskOutput (output secret : String) : String :=
  String.ofList (replaceAll secret.toList mask output.toList)

end SafeAlter
