namespace Classpath

/-! # Faults of files

Why an operation on a file or directory fails, in the terms and the words of the system that
performs it. -/

/-- The kinds of failure that are told apart outside of the system. -/
inductive SystemFault where
  | notFound
  | permissionDenied
  | alreadyExists
  | invalidData
  | unexpectedEnd
  | other
deriving Repr, DecidableEq

/-- The words for a kind of which nothing else is known. -/
def SystemFault.message : SystemFault → String
  | .notFound => "entity not found"
  | .permissionDenied => "permission denied"
  | .alreadyExists => "entity already exists"
  | .invalidData => "invalid data"
  | .unexpectedEnd => "unexpected end of file"
  | .other => "other error"

inductive FileFault where
  | notFound
  | busy
  | alreadyExists
  | notDirectory
  | isDirectory
  | nameTooLong
  /-- The path holds the character that ends paths for the system. -/
  | nulInPath
  /-- The content of a file is no text. -/
  | notText
deriving Repr, DecidableEq

namespace FileFault

def kind : FileFault → SystemFault
  | .notFound => .notFound
  | .alreadyExists => .alreadyExists
  | .notText => .invalidData
  | _ => .other

def message : FileFault → String
  | .notFound => "No such file or directory (os error 2)"
  | .busy => "Device or resource busy (os error 16)"
  | .alreadyExists => "File exists (os error 17)"
  | .notDirectory => "Not a directory (os error 20)"
  | .isDirectory => "Is a directory (os error 21)"
  | .nameTooLong => "File name too long (os error 36)"
  | .nulInPath => "file name contained an unexpected NUL byte"
  | .notText => "stream did not contain valid UTF-8"

end FileFault

end Classpath
