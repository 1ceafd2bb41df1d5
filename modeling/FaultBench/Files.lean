/-! Files in a working directory: paths, reading and creating, and the serial devices among them.
Outside the directory only the directories around it and single known files can be reached. -/
namespace FaultBench

inductive FileError where
  | notFound
  | isDirectory
  | notADirectory
  | nameTooLong
  /-- The contents are not valid UTF-8. -/
  | notText
  /-- What was to be copied is not a file. -/
  | notRegular
  deriving DecidableEq, Repr

namespace FileError

def reason : FileError → String
  | notFound => "No such file or directory"
  | isDirectory => "Is a directory"
  | notADirectory => "Not a directory"
  | nameTooLong => "File name too long"
  | notText => "stream did not contain valid UTF-8"
  | notRegular => "the source path is neither a regular file nor a symlink to a regular file"

/-- The number by which the system knows the failure. -/
def number? : FileError → Option String
  | notFound => some "2"
  | isDirectory => some "21"
  | notADirectory => some "20"
  | nameTooLong => some "36"
  | _ => none

def message (e : FileError) : String :=
  e.reason ++ e.number?.elim "" fun n => " (os error " ++ n ++ ")"

end FileError

inductive FileContents where
  | text (s : String)
  /-- Bytes that are not valid UTF-8. -/
  | binary (bytes : List UInt8)
  /-- What leads to the serial device of a name. -/
  | device (name : String)
  deriving DecidableEq, Repr

structure Files where
  /-- The files, each under the names that lead to it. -/
  contents : List (List String × FileContents) := []
  /-- Directories that need not hold a file. -/
  directories : List (List String) := []
  /-- Files by their whole paths, wherever they are. -/
  elsewhere : List (String × FileContents) := []
  deriving DecidableEq, Repr

namespace Files

inductive Place where
  | inside (path : List String)
  /-- A directory around the working directory. -/
  | outside
  deriving DecidableEq, Repr

def isDirectory (f : Files) (path : List String) : Bool :=
  path.isEmpty || f.directories.any path.isPrefixOf ||
    f.contents.any fun file => path.isPrefixOf file.1 && path ≠ file.1

/-- Whether a name leads nowhere else. -/
def staysHere (name : String) : Bool := name = "" || name = "."

def longestName : Nat := 255

def longestPath : Nat := 4095

/-- Follows names one by one, each of them from a directory. -/
def walk (f : Files) : Place → List String → Except FileError Place
  | p, [] => .ok p
  | .outside, name :: rest =>
    if staysHere name || name = ".." then f.walk .outside rest
    else .error (if longestName < name.utf8ByteSize then .nameTooLong else .notFound)
  | .inside path, name :: rest =>
    if f.isDirectory path then
      if longestName < name.utf8ByteSize then .error .nameTooLong
      else if staysHere name then f.walk (.inside path) rest
      else if name = ".." then
        f.walk (if path.isEmpty then .outside else .inside path.dropLast) rest
      else f.walk (.inside (path ++ [name])) rest
    else if (f.contents.lookup path).isSome then .error .notADirectory
    else .error .notFound

def locate (f : Files) (path : String) : Except FileError Place :=
  if path = "" then .error .notFound
  else if longestPath < path.utf8ByteSize then .error .nameTooLong
  else if f.elsewhere.any fun file => path.startsWith (file.1 ++ "/") then .error .notADirectory
  else f.walk (if path.startsWith "/" then .outside else .inside []) (path.splitOn "/")

def getAt (f : Files) : Place → Except FileError FileContents
  | .outside => .error .isDirectory
  | .inside names =>
    if f.isDirectory names then .error .isDirectory
    else (f.contents.lookup names).elim (.error .notFound) .ok

def get (f : Files) (path : String) : Except FileError FileContents :=
  match f.elsewhere.lookup path with
  | some c => .ok c
  | none => do f.getAt (← f.locate path)

/-- The text of a file. What a device sends is no text. -/
def read (f : Files) (path : String) : Except FileError String := do
  match ← f.get path with
  | .text s => .ok s
  | _ => .error .notText

inductive DeviceError where
  | unreached (e : FileError)
  /-- A file that is no serial device. -/
  | otherFile
  deriving DecidableEq, Repr

def DeviceError.message : DeviceError → String
  | .unreached e => e.reason
  | .otherFile => "Not a typewriter"

def deviceAt (f : Files) (path : String) : Except DeviceError String :=
  match f.get path with
  | .ok (.device name) => .ok name
  | .ok _ => .error .otherFile
  | .error e => .error (.unreached e)

def store (f : Files) (names : List String) (c : FileContents) : Files :=
  { f with contents := (names, c) :: f.contents.filter fun file => file.1 ≠ names }

/-- The place of a file that is to be created. A slash at the end asks for a directory. -/
def target (f : Files) (path : String) : Except FileError (List String) := do
  let trimmed := String.ofList (path.toList.reverse.dropWhile (· == '/')).reverse
  match ← f.locate (if trimmed = "" then path else trimmed) with
  | .outside => .error .isDirectory
  | .inside names =>
    if trimmed ≠ path || f.isDirectory names then .error .isDirectory else .ok names

def create (f : Files) (path : String) (c : FileContents) : Except FileError Files :=
  if (f.elsewhere.lookup path).isSome then
    .ok { f with elsewhere := (path, c) :: f.elsewhere.filter fun file => file.1 ≠ path }
  else do return f.store (← f.target path) c

/-- Copies a file. The copy is empty before the contents are read, even if it is the file itself. -/
def copy (f : Files) (source target : String) : Except FileError Files :=
  match f.get source with
  | .error .isDirectory => .error .notRegular
  | .error e => .error e
  | .ok _ => do
    let f ← f.create target (.text "")
    f.create target (← f.get source)

def join (directory name : String) : String :=
  if directory = "" then name
  else if directory.endsWith "/" then directory ++ name
  else directory ++ "/" ++ name

end Files
end FaultBench
