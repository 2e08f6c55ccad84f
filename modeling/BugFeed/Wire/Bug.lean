import BugFeed.Json.Decode
import BugFeed.Json.Written
import BugFeed.Search

/-!
# Bugs and searches as JSON

Each type has its `toJson` and, beside it, the decoder that takes every tree which `toJson` gives
back to the value it came from. The decoders also accept fields that have a default when they are
absent, fields in any order and fields that they do not know.
-/

namespace BugFeed

set_option autoImplicit false

open Json

def DateTime.toJson (t : DateTime) : Value := .str t.displayFull

def Instant.toJson (t : Instant) : Value := t.toDateTime.toJson

/-! ## Bugs -/

namespace BugInfo

/-- A bug as JSON, with any date-times as the times when it was created and changed. -/
def jsonAt (b : BugInfo) (created lastChange : DateTime) : Value := .ofMembers [
  ("id", .nat b.id.toNat),
  ("summary", .str b.summary),
  ("status", .str b.status),
  ("resolution", .str b.resolution),
  ("product", .str b.product),
  ("component", .ofList (b.component.map .str)),
  ("severity", .str b.severity),
  ("priority", .str b.priority),
  ("assigned_to", .str b.assignedTo),
  ("creation_time", created.toJson),
  ("last_change_time", lastChange.toJson)]

def toJson (b : BugInfo) : Value := b.jsonAt b.created.toDateTime b.lastChange.toDateTime

/-- A bug of which some fields have been read. -/
structure Draft where
  id : Option UInt64 := none
  summary : Option String := none
  status : Option String := none
  resolution : Option String := none
  product : Option String := none
  component : Option (List String) := none
  severity : Option String := none
  priority : Option String := none
  assignedTo : Option String := none
  created : Option Instant := none
  lastChange : Option Instant := none

def slots : List (Slot Draft) := [
  slot "id" (·.id) (fun d a => { d with id := some a }) word64,
  slot "summary" (·.summary) (fun d a => { d with summary := some a }) string,
  slot "status" (·.status) (fun d a => { d with status := some a }) string,
  slot "resolution" (·.resolution) (fun d a => { d with resolution := some a }) string,
  slot "product" (·.product) (fun d a => { d with product := some a }) string,
  slot "component" (·.component) (fun d a => { d with component := some a }) (listOf string),
  slot "severity" (·.severity) (fun d a => { d with severity := some a }) string,
  slot "priority" (·.priority) (fun d a => { d with priority := some a }) string,
  slot "assigned_to" (·.assignedTo) (fun d a => { d with assignedTo := some a }) string,
  slot "creation_time" (·.created) (fun d a => { d with created := some a }) instant,
  slot "last_change_time" (·.lastChange) (fun d a => { d with lastChange := some a }) instant]

/-- The bug that a draft describes; only its id and its times must have been read. -/
def ofDraft (d : Draft) : Except Problem BugInfo := do
  pure {
    id := ← required d.id
    summary := d.summary.getD ""
    status := d.status.getD ""
    resolution := d.resolution.getD ""
    product := d.product.getD ""
    component := d.component.getD []
    severity := d.severity.getD ""
    priority := d.priority.getD ""
    assignedTo := d.assignedTo.getD ""
    created := ← required d.created
    lastChange := ← required d.lastChange }

def decode : Decoder BugInfo := recordOf slots {} ofDraft

end BugInfo

namespace Bug

def toJson (b : Bug) : Value := .ofMembers [
  ("name", .str b.name),
  ("creation_timestamp", b.created.toJson),
  ("resource_version", .str b.version),
  ("info", b.info.toJson)]

/-- A kept bug of which some fields have been read. -/
structure Draft where
  name : Option String := none
  created : Option Instant := none
  version : Option String := none
  info : Option BugInfo := none

def slots : List (Slot Draft) := [
  slot "name" (·.name) (fun d a => { d with name := some a }) string,
  slot "creation_timestamp" (·.created) (fun d a => { d with created := some a }) instant,
  slot "resource_version" (·.version) (fun d a => { d with version := some a }) string,
  slot "info" (·.info) (fun d a => { d with info := some a }) BugInfo.decode]

/-- The kept bug that a draft describes. -/
def ofDraft (d : Draft) : Except Problem Bug := do
  pure {
    name := ← required d.name
    created := ← required d.created
    version := ← required d.version
    info := ← required d.info }

def decode : Decoder Bug := recordOf slots {} ofDraft

end Bug

namespace BugList

def toJson (l : BugList) : Value := .ofMembers [
  ("resource_version", .str l.version),
  ("items", .ofList (l.items.map Bug.toJson))]

/-- A list of which some fields have been read. -/
structure Draft where
  version : Option String := none
  items : Option (List Bug) := none

/-- The fields of a list of bugs. -/
def slots : List (Slot Draft) := [
  slot "resource_version" (·.version) (fun d a => { d with version := some a }) string,
  slot "items" (·.items) (fun d a => { d with items := some a }) (listOf Bug.decode)]

def ofDraft (d : Draft) : Except Problem BugList := do
  pure { version := ← required d.version, items := ← required d.items }

def decode : Decoder BugList := recordOf slots {} ofDraft

end BugList

/-! ## Searches -/

namespace SearchArgs

/-- A member that is left out when there is nothing to say. -/
def memberUnless (absent : Bool) (key : String) (v : Value) : List (String × Value) :=
  if absent then [] else [(key, v)]

/-- The filters of a search as JSON; filters that are not set are left out. -/
def toJson (a : SearchArgs) : Value := .ofMembers (
  memberUnless a.ids.isEmpty "ids" (.ofList (a.ids.map fun id => .nat id.toNat)) ++
  memberUnless a.products.isEmpty "product" (.ofList (a.products.map .str)) ++
  memberUnless a.components.isEmpty "component" (.ofList (a.components.map .str)) ++
  memberUnless a.statuses.isEmpty "status" (.ofList (a.statuses.map .str)) ++
  memberUnless a.quicksearch.isNone "quicksearch" (.ofOption (a.quicksearch.map .str)) ++
  memberUnless a.changedSince.isNone "last_change_time"
    (.ofOption (a.changedSince.map Instant.toJson)))

/-- Filters of which some fields have been read. -/
structure Draft where
  ids : Option (List UInt64) := none
  products : Option (List String) := none
  components : Option (List String) := none
  statuses : Option (List String) := none
  quicksearch : Option (Option String) := none
  changedSince : Option (Option Instant) := none

def slots : List (Slot Draft) := [
  slot "ids" (·.ids) (fun d a => { d with ids := some a }) (listOf word64),
  slot "product" (·.products) (fun d a => { d with products := some a }) (listOf string),
  slot "component" (·.components) (fun d a => { d with components := some a }) (listOf string),
  slot "status" (·.statuses) (fun d a => { d with statuses := some a }) (listOf string),
  slot "quicksearch" (·.quicksearch) (fun d a => { d with quicksearch := some a })
    (optional string),
  slot "last_change_time" (·.changedSince) (fun d a => { d with changedSince := some a })
    (optional instant)]

def ofDraft (d : Draft) : Except Problem SearchArgs :=
  .ok {
    ids := d.ids.getD []
    products := d.products.getD []
    components := d.components.getD []
    statuses := d.statuses.getD []
    quicksearch := d.quicksearch.getD none
    changedSince := d.changedSince.getD none }

def decode : Decoder SearchArgs := recordOf slots {} ofDraft

end SearchArgs

namespace SearchResponse

/-- The answer to a search as JSON. -/
def toJson (r : SearchResponse) : Value :=
  .ofMembers [("bugs", .ofList (r.bugs.map BugInfo.toJson))]

/-- An answer of which some fields have been read. -/
structure Draft where
  bugs : Option (List BugInfo) := none

def slots : List (Slot Draft) := [
  slot "bugs" (·.bugs) (fun _ a => { bugs := some a }) (listOf BugInfo.decode)]

def decode : Decoder SearchResponse :=
  recordOf slots {} fun d => .ok { bugs := d.bugs.getD [] }

end SearchResponse

namespace ListOptions

def toJson (o : ListOptions) : Value := .ofMembers [
  ("resource_version", .ofOption (o.version.map .str)),
  ("labels", .ofMembers (o.labels.entries.map fun e => (e.1, .str e.2)))]

/-- Options of which some fields have been read. -/
structure Draft where
  version : Option (Option String) := none
  labels : Option (Catalog String) := none

def slots : List (Slot Draft) := [
  slot "resource_version" (·.version) (fun d a => { d with version := some a })
    (optional string),
  slot "labels" (·.labels) (fun d a => { d with labels := some a }) (catalogOf string)]

def decode : Decoder ListOptions :=
  recordOf slots {} fun d =>
    .ok { version := d.version.getD none, labels := d.labels.getD .empty }

end ListOptions

end BugFeed
