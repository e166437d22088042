import ElasticPool.Settings
import ElasticPool.Json.Reader

namespace ElasticPool.Settings

inductive DocumentError
  | malformed
  | refused (cause : ConfigFault)

def fieldNames : List String :=
  ["min_concurrency", "max_concurrency", "desired_concurrency", "max_tasks_per_minute"]

def word? : Json → Option UInt64
  | .word n => some n
  | _ => none

def real? : Json → Option Float
  | .word n => some n.toFloat
  | .real x => some x
  | _ => none

/-- A value that may be left out, but not be null. -/
def given {α : Type} (read : Json → Option α) : Option Json → Option (Option α)
  | none => some none
  | some v => (read v).map some

/-- A value that may be left out or be null. -/
def nullable {α : Type} (read : Json → Option α) : Option Json → Option (Option α)
  | none | some .null => some none
  | some v => (read v).map some

def Fields.ofValues? (minimum maximum desired rate : Option Json) : Option Fields := do
  return {
    minimum? := ← given word? minimum
    maximum? := ← given word? maximum
    desired? := ← nullable word? desired
    tasksPerMinute? := ← nullable real? rate }

/-- The fields that a document gives.  Names must be known and not be repeated. -/
def Fields.ofJson? : Json → Option Fields
  | .object members =>
      let names := members.map Prod.fst
      if names.Nodup ∧ names ⊆ fieldNames then
        ofValues? (members.lookup "min_concurrency") (members.lookup "max_concurrency")
          (members.lookup "desired_concurrency") (members.lookup "max_tasks_per_minute")
      else none
  | .array items =>
      if items.length ≤ 4 then ofValues? items[0]? items[1]? items[2]? items[3]? else none
  | _ => none

def ofJson (document : Json) : Except DocumentError Settings :=
  match Fields.ofJson? document with
  | none => .error .malformed
  | some fields => (build fields).mapError .refused

/-- The settings with every field written out. -/
def toJson (s : Settings) : Json :=
  .object [
    ("min_concurrency", .word s.minimum),
    ("max_concurrency", .word s.maximum),
    ("desired_concurrency", .word s.desired),
    ("max_tasks_per_minute", s.tasksPerMinute.elim .null .real)]

/-- The settings in a text.  The values are checked as soon as the document ends,
before anything that follows it is refused. -/
def ofText (text : String) : Except DocumentError Settings :=
  match Json.Reader.value text.toList with
  | none => .error .malformed
  | some (document, rest) => do
      let s ← ofJson document
      if Json.Reader.atEnd rest then .ok s else .error .malformed

def readsBack (s : Settings) : Bool :=
  match ofJson s.toJson with
  | .ok again => again == s
  | .error _ => false

end ElasticPool.Settings
