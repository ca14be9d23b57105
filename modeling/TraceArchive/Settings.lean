set_option autoImplicit false

/-!
Settings of the archive.
-/

namespace TraceArchive

/-- Storage in memory is divided into shards: a power of two of them, at least two. -/
def isShardAmount (n : Nat) : Bool := 2 ≤ n && Nat.pow 2 n.log2 == n

structure Settings where
  /-- Whether traces are told apart by all bits of their ids, or by the low half alone. -/
  strictTraceId : Bool := true
  /-- No answer depends on the number of shards. -/
  shardAmount : Nat := 16
  isShardAmount : isShardAmount shardAmount = true := by decide

inductive SettingsError where
  | unreadable
  | malformed
  | shardAmount (n : Nat)
  deriving DecidableEq

namespace SettingsError

def message : SettingsError → String
  | .unreadable => "the settings cannot be read"
  | .malformed => "the settings are malformed"
  | .shardAmount n => "shard_amount must be a power of two greater than 1, got " ++ n.repr

end SettingsError

namespace Settings

instance : Inhabited Settings := ⟨{}⟩

def validate (strictTraceId : Bool) (shardAmount : Nat) : Except SettingsError Settings :=
  if h : TraceArchive.isShardAmount shardAmount then .ok ⟨strictTraceId, shardAmount, h⟩
  else .error (.shardAmount shardAmount)

end Settings

end TraceArchive
