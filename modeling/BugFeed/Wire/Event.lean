import BugFeed.Watch.Event
import BugFeed.Wire.Bug

/-!
# Watch events as JSON

An event is a record whose only member is named for its kind.
-/

namespace BugFeed

set_option autoImplicit false

open Json

namespace StatusReason

def word : StatusReason → String
  | .expired => "Expired"
  | .internalError => "InternalError"

def decode : Decoder StatusReason :=
  oneOf [("Expired", .name .expired), ("InternalError", .name .internalError)]

end StatusReason

namespace Status

def toJson (s : Status) : Value := .ofMembers [
  ("reason", .str s.reason.word),
  ("code", .nat s.code.toNat),
  ("message", .str s.message)]

/-- A status of which some fields have been read. -/
structure Draft where
  reason : Option StatusReason := none
  code : Option UInt16 := none
  message : Option String := none

def slots : List (Slot Draft) := [
  slot "reason" (·.reason) (fun d a => { d with reason := some a }) StatusReason.decode,
  slot "code" (·.code) (fun d a => { d with code := some a }) word16,
  slot "message" (·.message) (fun d a => { d with message := some a }) string]

def ofDraft (d : Draft) : Except Problem Status := do
  pure {
    reason := ← required d.reason
    code := ← required d.code
    message := ← required d.message }

def decode : Decoder Status := recordOf slots {} ofDraft

end Status

namespace WatchEvent

def toJson : WatchEvent → Value
  | .added b => .ofMembers [("Added", b.toJson)]
  | .modified b => .ofMembers [("Modified", b.toJson)]
  | .error s => .ofMembers [("Error", s.toJson)]

def decode : Decoder WatchEvent :=
  oneOf [
    ("Added", .carries fun v => .added <$> Bug.decode v),
    ("Modified", .carries fun v => .modified <$> Bug.decode v),
    ("Error", .carries fun v => .error <$> Status.decode v)]

end WatchEvent

end BugFeed
