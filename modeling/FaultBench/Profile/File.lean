import FaultBench.Files
import FaultBench.Profile.Document
import FaultBench.Text.Quoted

/-! Profiles out of files. -/
namespace FaultBench.Profile

inductive FileRejection where
  | unread (path : String) (e : FileError)
  | rejected (path : String) (r : Rejection)
  deriving DecidableEq, Repr

def FileRejection.message : FileRejection → String
  | .unread path e =>
    "Failed to read profile at " ++ Text.quotedPath path ++ ": " ++ e.message
  | .rejected path r => "Invalid profile " ++ Text.quotedPath path ++ ": " ++ r.message

/-- Whether the program ended while it validated the profile. -/
def FileRejection.crashes : FileRejection → Bool
  | .rejected _ (.invalid .crash) => true
  | _ => false

def ofFile (f : Files) (path : String) : Except FileRejection Profile :=
  match f.read path with
  | .error e => .error (.unread path e)
  | .ok text => (ofYaml text).mapError (.rejected path)

end FaultBench.Profile
