import TraceArchive.Ingest
import TraceArchive.Search
import TraceArchive.Settings.Document

set_option autoImplicit false

/-!
The archive: a store, opened with settings that make sense, and the errors that its callers see.
-/

namespace TraceArchive

inductive ArchiveError where
  | argument (detail : String)
  | settings (detail : String)
  | file (detail : String)
  | unavailable (detail : String)
  | storage (detail : String)
  | serialization (detail : String)
  | internal (detail : String)
  deriving DecidableEq

namespace ArchiveError

def message : ArchiveError → String
  | .argument detail => "invalid argument: " ++ detail
  | .settings detail => "invalid config: " ++ detail
  | .file detail => "I/O error: " ++ detail
  | .unavailable detail => "storage unavailable: " ++ detail
  | .storage detail => "storage error: " ++ detail
  | .serialization detail => "serialization error: " ++ detail
  | .internal detail => "internal error: " ++ detail

/-- A malformed id is an invalid argument. -/
def ofFailure : Failure → ArchiveError
  | .unavailable detail => .unavailable detail
  | .storage detail => .storage detail
  | .argument detail => .argument detail
  | .id detail => .argument (Failure.id detail).message
  | .serialization detail => .serialization detail
  | .internal detail => .internal detail

def ofSettings : SettingsError → ArchiveError
  | .unreadable => .file SettingsError.unreadable.message
  | e => .settings e.message

/-- Whether a retry may help. -/
def isRetryable : ArchiveError → Bool
  | .unavailable _ => true
  | _ => false

/-- Whether the caller is at fault. -/
def isInvalidInput : ArchiveError → Bool
  | .argument _ | .settings _ => true
  | _ => false

/-- Whether the archive itself is at fault. -/
def isSerious : ArchiveError → Bool
  | .internal _ => true
  | _ => false

end ArchiveError

structure Archive where
  settings : Settings
  store : Store

namespace Archive

/-- With the default settings, and nothing stored. -/
def inMemory : Archive := ⟨default, default⟩

instance : Inhabited Archive := ⟨inMemory⟩

def openWith (strictTraceId : Bool) (shardAmount : Nat) (store : Store) :
    Except ArchiveError Archive :=
  match Settings.validate strictTraceId shardAmount with
  | .ok settings => .ok ⟨settings, store⟩
  | .error e => .error (.ofSettings e)

/-- Runs a session with the store, whose outcome includes the archive after it. -/
def run {α : Type} (a : Archive) (session : Session α) : Except Halt α × Archive :=
  let outcome := Id.run (session.run a.store)
  (outcome.1, { a with store := outcome.2 })

end Archive

end TraceArchive
