import BugFeed.Proofs.Json.Decoding
import BugFeed.Wire.Event
import BugFeed.Wire.Settings

/-!
# What is written as JSON is read back

Every value of every type that has a JSON form is decoded from the text that it is written as:
bugs, lists of them, searches and their answers, options, watch events and settings
(`read_back_as_written`). For each type, its decoder undoes `toJson`: the members that `toJson`
writes fill the slots of the record, and the draft that they make up describes the value.

The filters of a search leave out what is not set. Such a slot stays free, and its default is what
was left out.

The times of these values are instants. A date-time in a leap second within a minute is written like
the ordinary second after it, and is read back as that one (`BugInfo.decodeText_jsonAt`).
-/

namespace BugFeed

set_option autoImplicit false

open Json

/-! ## Bugs -/

theorem Instant.undoes : Undoes instant Instant.toJson := undoes_instant

theorem BugInfo.undoes : Undoes decode toJson :=
  undoes_recordOf (by decide)
    (fun b => ⟨some b.id, some b.summary, some b.status, some b.resolution, some b.product,
      some b.component, some b.severity, some b.priority, some b.assignedTo, some b.created,
      some b.lastChange⟩)
    (fun b => .next undoes_word64 b.id rfl <| .next undoes_string b.summary rfl <|
      .next undoes_string b.status rfl <| .next undoes_string b.resolution rfl <|
      .next undoes_string b.product rfl <| .next (undoes_listOf undoes_string) b.component rfl <|
      .next undoes_string b.severity rfl <| .next undoes_string b.priority rfl <|
      .next undoes_string b.assignedTo rfl <| .next Instant.undoes b.created rfl <|
      .next Instant.undoes b.lastChange rfl <| .done _ _)
    (fun _ => rfl)

theorem Bug.undoes : Undoes decode toJson :=
  undoes_recordOf (by decide)
    (fun b => ⟨some b.name, some b.created, some b.version, some b.info⟩)
    (fun b => .next undoes_string b.name rfl <| .next Instant.undoes b.created rfl <|
      .next undoes_string b.version rfl <| .next BugInfo.undoes b.info rfl <| .done _ _)
    (fun _ => rfl)

theorem BugList.undoes : Undoes decode toJson :=
  undoes_recordOf (by decide)
    (fun l => ⟨some l.version, some l.items⟩)
    (fun l => .next undoes_string l.version rfl <|
      .next (undoes_listOf Bug.undoes) l.items rfl <| .done _ _)
    (fun _ => rfl)

/-! ## Searches -/

namespace SearchArgs

variable {β δ : Type}

/-- What a draft holds after a member that is left out when there is nothing to say. -/
def kept (absent : Bool) (b : β) : Option β := if absent then none else some b

/-- A member that may be left out, before other members. -/
theorem fills_memberUnless {decode : Decoder β} {write : β → Value} {name : String}
    {get : δ → Option β} {put : δ → β → δ} {slots : List (Slot δ)}
    {members : List (String × Value)} {d f : δ} (set : δ → Option β → δ)
    (h : Undoes decode write) (absent : Bool) (b : β) (free : get d = none)
    (empty : set d none = d) (filled : set d (some b) = put d b)
    (rest : Fills slots members (set d (kept absent b)) f) :
    Fills (slot name get put decode :: slots) (memberUnless absent name (write b) ++ members)
      d f := by
  cases absent with
  | true => exact .skip (empty ▸ rest)
  | false => exact .next h b free (filled ▸ rest)

theorem getD_kept_isEmpty (bs : List β) : (kept bs.isEmpty bs).getD [] = bs := by
  cases bs <;> rfl

theorem getD_kept_isNone (b : Option β) : (kept b.isNone b).getD none = b := by
  cases b <;> rfl

/-- The members of the filters, each before those that follow it. -/
def members (a : SearchArgs) : List (String × Value) :=
  memberUnless a.ids.isEmpty "ids" (.ofList (a.ids.map fun id => .nat id.toNat)) ++
  (memberUnless a.products.isEmpty "product" (.ofList (a.products.map .str)) ++
  (memberUnless a.components.isEmpty "component" (.ofList (a.components.map .str)) ++
  (memberUnless a.statuses.isEmpty "status" (.ofList (a.statuses.map .str)) ++
  (memberUnless a.quicksearch.isNone "quicksearch" (.ofOption (a.quicksearch.map .str)) ++
  (memberUnless a.changedSince.isNone "last_change_time"
    (.ofOption (a.changedSince.map Instant.toJson)) ++ [])))))

theorem toJson_eq (a : SearchArgs) : a.toJson = .ofMembers a.members := by
  simp only [toJson, members, List.append_assoc, List.append_nil]

/-- What the members of the filters make up. -/
def draftOf (a : SearchArgs) : Draft where
  ids := kept a.ids.isEmpty a.ids
  products := kept a.products.isEmpty a.products
  components := kept a.components.isEmpty a.components
  statuses := kept a.statuses.isEmpty a.statuses
  quicksearch := kept a.quicksearch.isNone a.quicksearch
  changedSince := kept a.changedSince.isNone a.changedSince

theorem fills_members (a : SearchArgs) : Fills slots a.members {} a.draftOf :=
  have strings := undoes_listOf undoes_string
  have string? := undoes_optional undoes_string str_ne_null
  have instant? := undoes_optional Instant.undoes fun _ => str_ne_null _
  fills_memberUnless (fun d o => { d with ids := o }) (undoes_listOf undoes_word64) _ a.ids
    rfl rfl rfl <|
  fills_memberUnless (fun d o => { d with products := o }) strings _ a.products rfl rfl rfl <|
  fills_memberUnless (fun d o => { d with components := o }) strings _ a.components rfl rfl rfl <|
  fills_memberUnless (fun d o => { d with statuses := o }) strings _ a.statuses rfl rfl rfl <|
  fills_memberUnless (fun d o => { d with quicksearch := o }) string? _ a.quicksearch
    rfl rfl rfl <|
  fills_memberUnless (fun d o => { d with changedSince := o }) instant? _ a.changedSince
    rfl rfl rfl <| .done _ _

theorem ofDraft_draftOf (a : SearchArgs) : ofDraft a.draftOf = .ok a := by
  simp only [ofDraft, draftOf, getD_kept_isEmpty, getD_kept_isNone]

theorem undoes : Undoes decode toJson := by
  rw [funext toJson_eq]
  exact undoes_recordOf (by decide) draftOf fills_members ofDraft_draftOf

end SearchArgs

theorem SearchResponse.undoes : Undoes decode toJson :=
  undoes_recordOf (by decide)
    (fun r => ⟨some r.bugs⟩)
    (fun r => .next (undoes_listOf BugInfo.undoes) r.bugs rfl <| .done _ _)
    (fun _ => rfl)

theorem ListOptions.undoes : Undoes decode toJson :=
  undoes_recordOf (by decide)
    (fun o => ⟨some o.version, some o.labels⟩)
    (fun o => .next (undoes_optional undoes_string str_ne_null) o.version rfl <|
      .next (undoes_catalogOf undoes_string) o.labels rfl <| .done _ _)
    (fun _ => rfl)

/-! ## Watch events -/

theorem StatusReason.undoes : Undoes decode fun r => .str r.word where
  whole _ := True.intro
  back r := by cases r <;> rfl

theorem Status.undoes : Undoes decode toJson :=
  undoes_recordOf (by decide)
    (fun s => ⟨some s.reason, some s.code, some s.message⟩)
    (fun s => .next StatusReason.undoes s.reason rfl <| .next undoes_word16 s.code rfl <|
      .next undoes_string s.message rfl <| .done _ _)
    (fun _ => rfl)

theorem WatchEvent.undoes : Undoes decode toJson where
  whole e := by
    cases e with
    | added b => exact ⟨Bug.undoes.whole b, True.intro⟩
    | modified b => exact ⟨Bug.undoes.whole b, True.intro⟩
    | error s => exact ⟨Status.undoes.whole s, True.intro⟩
  back e := by
    cases e with
    | added b => exact oneOf_carries rfl (congrArg (Except.map added) (Bug.undoes.back b))
    | modified b => exact oneOf_carries rfl (congrArg (Except.map modified) (Bug.undoes.back b))
    | error s => exact oneOf_carries rfl (congrArg (Except.map error) (Status.undoes.back s))

/-! ## Settings -/

theorem WatchConfig.undoes : Undoes decode toJson :=
  undoes_recordOf (by decide)
    (fun c => ⟨some c.pollIntervalMs, some c.maxWatchDurationMs, some c.eventBufferSize⟩)
    (fun c => .next undoes_word64 c.pollIntervalMs rfl <|
      .next undoes_word64 c.maxWatchDurationMs rfl <|
      .next undoes_word64 c.eventBufferSize rfl <| .done _ _)
    (fun _ => rfl)

theorem BackoffPolicy.undoes : Undoes decode toJson :=
  undoes_recordOf (by decide)
    (fun p => ⟨some p.maxRetries, some p.timeoutMs, some p.baseDelayMs, some p.maxDelayMs⟩)
    (fun p => .next undoes_word64 p.maxRetries rfl <| .next undoes_word64 p.timeoutMs rfl <|
      .next undoes_word64 p.baseDelayMs rfl <| .next undoes_word64 p.maxDelayMs rfl <|
      .done _ _)
    (fun _ => rfl)

theorem RetryPolicies.undoes : Undoes decode toJson :=
  undoes_recordOf (by decide)
    (fun p => ⟨some p.list⟩)
    (fun p => .next BackoffPolicy.undoes p.list rfl <| .done _ _)
    (fun _ => rfl)

theorem InformerConfig.undoes : Undoes decode toJson :=
  undoes_recordOf (by decide)
    (fun c => ⟨some c.watch, some c.retry⟩)
    (fun c => .next WatchConfig.undoes c.watch rfl <|
      .next RetryPolicies.undoes c.retry rfl <| .done _ _)
    (fun _ => rfl)

/-! ## All values -/

/-- **Every value is read back as it was written.** This holds for every type that has a JSON form
and for all of its values: any texts, any labels, all 64-bit numbers, and all instants of the
calendar, with years of any sign and length, leap seconds at the end of a minute and fractions of any
precision. -/
theorem Json.read_back_as_written :
    (∀ b : BugInfo, decodeText BugInfo.decode b.toJson.render = .ok b) ∧
    (∀ b : Bug, decodeText Bug.decode b.toJson.render = .ok b) ∧
    (∀ l : BugList, decodeText BugList.decode l.toJson.render = .ok l) ∧
    (∀ a : SearchArgs, decodeText SearchArgs.decode a.toJson.render = .ok a) ∧
    (∀ r : SearchResponse, decodeText SearchResponse.decode r.toJson.render = .ok r) ∧
    (∀ o : ListOptions, decodeText ListOptions.decode o.toJson.render = .ok o) ∧
    (∀ e : WatchEvent, decodeText WatchEvent.decode e.toJson.render = .ok e) ∧
    (∀ s : Status, decodeText Status.decode s.toJson.render = .ok s) ∧
    (∀ c : WatchConfig, decodeText WatchConfig.decode c.toJson.render = .ok c) ∧
    (∀ p : BackoffPolicy, decodeText BackoffPolicy.decode p.toJson.render = .ok p) ∧
    (∀ p : RetryPolicies, decodeText RetryPolicies.decode p.toJson.render = .ok p) ∧
    (∀ c : InformerConfig, decodeText InformerConfig.decode c.toJson.render = .ok c) :=
  ⟨BugInfo.undoes.decodeText_render, Bug.undoes.decodeText_render,
    BugList.undoes.decodeText_render, SearchArgs.undoes.decodeText_render,
    SearchResponse.undoes.decodeText_render, ListOptions.undoes.decodeText_render,
    WatchEvent.undoes.decodeText_render, Status.undoes.decodeText_render,
    WatchConfig.undoes.decodeText_render, BackoffPolicy.undoes.decodeText_render,
    RetryPolicies.undoes.decodeText_render, InformerConfig.undoes.decodeText_render⟩

/-- A bug whose times are any date-times is read back with the instants that their texts denote. -/
theorem BugInfo.decodeText_jsonAt (b : BugInfo) (created lastChange : DateTime) :
    decodeText decode (b.jsonAt created lastChange).render =
      .ok { b with created := created.spelled, lastChange := lastChange.spelled } := by
  have written : b.jsonAt created lastChange =
      toJson { b with created := created.spelled, lastChange := lastChange.spelled } := by
    simp only [toJson, jsonAt, DateTime.toJson, Relaxed.displayFull_spelled]
  rw [written, BugInfo.undoes.decodeText_render]

/-- A bug that changed in the leap second after 08:59:50 is read back as one that changed in the
second 08:59:51. -/
theorem BugInfo.leap_second_not_read_back :
    ∃ c : BugInfo,
      decodeText decode (jsonAt ⟨1, "", "", "", "", [], "", "", "", .epoch, .epoch⟩
        Instant.epoch.toDateTime DateTime.withinMinute).render = .ok c ∧
      DateTime.withinMinute.displayFull = "2024-01-01T08:59:51.333333333Z" ∧
      c.lastChange.toDateTime ≠ DateTime.withinMinute :=
  ⟨_, decodeText_jsonAt _ _ _, rfl, by decide⟩

end BugFeed
