import TraceArchive.Request
import TraceArchive.Text.Split

set_option autoImplicit false

/-!
Drafts of requests. A draft collects what a caller asks for; it becomes a request when it makes
sense, with names cleansed and defaults filled in.
-/

namespace TraceArchive

/-- Why a draft is no request. -/
inductive RequestError where
  | endTs
  | lookback
  | limit
  | minDuration
  | durationBounds (min max : UInt64)
  | emptyKey
  deriving DecidableEq

def RequestError.message : RequestError → String
  | .endTs => "endTs should be positive"
  | .lookback => "lookback should be positive"
  | .limit => "limit should be positive"
  | .minDuration => "minDuration should be positive"
  | .durationBounds min max =>
    "maxDuration " ++ max.toNat.repr ++ " should be >= minDuration " ++ min.toNat.repr
  | .emptyKey => "annotation keys should not be empty"

structure Request.Draft where
  service : Option String := none
  spanName : Option String := none
  terms : SortedSet String := .empty
  tags : SortedMap String String := .empty
  minDuration : Option UInt64 := none
  maxDuration : Option UInt64 := none
  endTs : Option UInt64 := none
  lookback : Option UInt64 := none
  limit : Option UInt64 := none

namespace Request.Draft

def addTerm (d : Draft) (term : String) : Draft := { d with terms := d.terms.insert term }

def putTag (d : Draft) (key text : String) : Draft := { d with tags := d.tags.insert key text }

/-- One part of an annotation query: a tag if there is an equals sign, otherwise a term. -/
def addPart (d : Draft) (part : List Char) : Draft :=
  let part := Text.trimChars part
  if part = [] then d
  else match Text.cut? ['='] part with
    | some (key, text) =>
      d.putTag (String.ofList (Text.trimChars key)) (String.ofList (Text.trimChars text))
    | none => d.addTerm (String.ofList part)

/-- Adds the parts of an annotation query such as `error and http.path=/api`. -/
def addQuery (d : Draft) (query : String) : Draft :=
  (Text.splitWord " and ".toList query.toList).foldl addPart d

def defaultLimit : UInt64 := 10

/-- The span name that stands for any span name. -/
def anyName : String := "all"

/-- What is wrong with a draft; of several faults the first one in this order is told. -/
def fault? (d : Draft) (endTs lookback limit : UInt64) : Option RequestError :=
  if endTs = 0 then some .endTs
  else if lookback = 0 then some .lookback
  else if limit = 0 then some .limit
  else if d.minDuration = some 0 then some .minDuration
  else match d.minDuration, d.maxDuration with
    | some min, some max => if max < min then some (.durationBounds min max) else emptyKey?
    | _, _ => emptyKey?
where
  emptyKey? : Option RequestError :=
    if "" ∈ d.terms.toList ∨ "" ∈ d.tags.keys then some .emptyKey else none

/-- The window ends now and looks back on all time, unless the draft tells otherwise. -/
def request (d : Draft) (now : UInt64) : Except RequestError Request :=
  let endTs := d.endTs.getD now
  let lookback := d.lookback.getD endTs
  let limit := d.limit.getD defaultLimit
  match d.fault? endTs lookback limit with
  | some e => .error e
  | none => .ok {
      service := d.service.bind cleanse
      spanName := (d.spanName.bind cleanse).filter (· ≠ anyName)
      terms := d.terms
      tags := d.tags
      minDuration := d.minDuration
      maxDuration := d.maxDuration
      endTs, lookback, limit }

end Request.Draft

end TraceArchive
