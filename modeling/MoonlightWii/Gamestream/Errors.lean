/-!
# C strings and error codes (`errors.h`, `set_error.c`)

A C string is the list of its characters without the terminator.
-/

set_option autoImplicit false

namespace MoonlightWii.Gamestream.Errors

abbrev CString := List Char

def gsOk : Int := 0

def gsFailed : Int := -1

def gsOutOfMemory : Int := -2

def gsInvalid : Int := -3

def gsWrongState : Int := -4

def gsIoError : Int := -5

def gsNotSupported4K : Int := -6

def gsUnsupportedVersion : Int := -7

def gsNotSupportedMode : Int := -8

def gsError : Int := -9

def gsNotSupportedSopsResolution : Int := -10

def gsBadConf : Int := -11

structure GsError where
  code : Int
  message : CString
  deriving DecidableEq

def snprintf (size : Nat) (text : CString) : CString := text.take (size - 1)

def gsSetError (code : Int) (text : CString) : GsError where
  code := code
  message := snprintf 1024 text

/-- `%d`. -/
def decimal (value : Int) : CString := value.repr.toList

def isSpace (char : Char) : Bool :=
  char == ' ' || (9 ≤ char.toNat && char.toNat ≤ 13)

def digitsValue (digits : CString) : Int :=
  digits.foldl (fun value digit => value * 10 + (digit.toNat - '0'.toNat : Nat)) 0

/-- A `long` of 32 bits. -/
def clampLong (value : Int) : Int :=
  if value < -2147483648 then -2147483648 else if 2147483647 < value then 2147483647 else value

/-- `atoi` and `strtol` in base 10. -/
def atoi (text : CString) : Int :=
  match text.dropWhile isSpace with
  | '-' :: rest => clampLong (-digitsValue (rest.takeWhile Char.isDigit))
  | '+' :: rest => clampLong (digitsValue (rest.takeWhile Char.isDigit))
  | rest => clampLong (digitsValue (rest.takeWhile Char.isDigit))

end MoonlightWii.Gamestream.Errors
