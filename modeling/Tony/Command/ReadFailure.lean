/-! Why there is no text to read, and what the system says about it. -/

namespace Tony.Command

inductive ReadFailure where
  | system (code : Nat)
  | notText
  deriving DecidableEq, Repr

namespace ReadFailure

def notFound : ReadFailure :=
  .system 2

def notDirectory : ReadFailure :=
  .system 20

def isDirectory : ReadFailure :=
  .system 21

def nameTooLong : ReadFailure :=
  .system 36

def description : Nat → String
  | 1 => "Operation not permitted"
  | 2 => "No such file or directory"
  | 4 => "Interrupted system call"
  | 5 => "Input/output error"
  | 6 => "No such device or address"
  | 9 => "Bad file descriptor"
  | 11 => "Resource temporarily unavailable"
  | 12 => "Cannot allocate memory"
  | 13 => "Permission denied"
  | 16 => "Device or resource busy"
  | 19 => "No such device"
  | 20 => "Not a directory"
  | 21 => "Is a directory"
  | 22 => "Invalid argument"
  | 23 => "Too many open files in system"
  | 24 => "Too many open files"
  | 27 => "File too large"
  | 36 => "File name too long"
  | 40 => "Too many levels of symbolic links"
  | code => "Unknown error " ++ toString code

def message : ReadFailure → String
  | system code => description code ++ " (os error " ++ toString code ++ ")"
  | notText => "stream did not contain valid UTF-8"

def decode (content : ByteArray) : Except ReadFailure (List Char) :=
  match String.fromUTF8? content with
  | some s => .ok s.toList
  | none => .error notText

end ReadFailure
end Tony.Command
