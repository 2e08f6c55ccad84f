import BugFeed.Proofs.Settings.Laying

/-!
# The settings and their keys

There are seven settings, each under some names of a tree (`Key.names`). A tree that holds a whole
number for each of them gives settings with these numbers (`ofNode_of_holds`). Settings are made
into a layer if all of them are signed 64-bit numbers, and are refused for one that is not
(`toLayer_of_small`, `toLayer_of_large`).
-/

namespace BugFeed

set_option autoImplicit false

/-! ## Keys -/

/-- The settings, each by what it sets. -/
inductive Settings.Key where
  | pollInterval
  | maxWatchDuration
  | eventBufferSize
  | maxRetries
  | timeout
  | baseDelay
  | maxDelay
  deriving DecidableEq, Repr

namespace Settings

/-- The names that lead to a setting. -/
def Key.names : Key → List String
  | .pollInterval => ["watch", "poll_interval_ms"]
  | .maxWatchDuration => ["watch", "max_watch_duration_ms"]
  | .eventBufferSize => ["watch", "event_buffer_size"]
  | .maxRetries => ["retry", "list", "max_retries"]
  | .timeout => ["retry", "list", "timeout_ms"]
  | .baseDelay => ["retry", "list", "base_delay_ms"]
  | .maxDelay => ["retry", "list", "max_delay_ms"]

def Key.path (k : Key) : Path := k.names.map .key

theorem Key.exists_names_cons (k : Key) : ∃ name rest, k.names = name :: rest := by
  cases k <;> exact ⟨_, _, rfl⟩

/-- A whole number as something that is found. -/
def Finding.whole (n : Nat) : Finding := .scalar (.integer n)

/-- A tree that holds a whole number for every setting. -/
def Holds (node : Node) (values : Key → Nat) : Prop :=
  ∀ k : Key, node.found? k.names = some (.whole (values k))

end Settings

namespace InformerConfig

open Settings (Key)

/-- The value of a setting. -/
def get (c : InformerConfig) : Key → UInt64
  | .pollInterval => c.watch.pollIntervalMs
  | .maxWatchDuration => c.watch.maxWatchDurationMs
  | .eventBufferSize => c.watch.eventBufferSize
  | .maxRetries => c.retry.list.maxRetries
  | .timeout => c.retry.list.timeoutMs
  | .baseDelay => c.retry.list.baseDelayMs
  | .maxDelay => c.retry.list.maxDelayMs

/-- Settings are their values. -/
theorem eq_of_get_eq {c d : InformerConfig} (h : ∀ k, c.get k = d.get k) : c = d := by
  obtain ⟨⟨_, _, _⟩, ⟨⟨_, _, _, _⟩⟩⟩ := c
  obtain ⟨⟨_, _, _⟩, ⟨⟨_, _, _, _⟩⟩⟩ := d
  cases h .pollInterval
  cases h .maxWatchDuration
  cases h .eventBufferSize
  cases h .maxRetries
  cases h .timeout
  cases h .baseDelay
  cases h .maxDelay
  rfl

end InformerConfig

/-! ## From a tree to settings -/

namespace Settings

theorem exists_table_of_key? {node value : Node} {name : String}
    (h : node.key? name = some value) :
    ∃ origin entries, node = .table origin entries ∧ entries.get? name = some value := by
  cases node with
  | leaf origin v => cases h
  | list origin items => cases h
  | table origin entries => exact ⟨origin, entries, rfl, h⟩

theorem expectRecord_of_key? {node value : Node} {name : String}
    (h : node.key? name = some value) (record : String) : expectRecord record node = .ok () := by
  obtain ⟨origin, entries, rfl, -⟩ := exists_table_of_key? h
  rfl

theorem field_of_key? {α : Type} {node value : Node} {name : String} {a : α}
    {read : Node → Except LoadFault α} (h : node.key? name = some value)
    (taken : read value = .ok a) (place : Nat) (default : α) :
    field node name place default read = .ok a := by
  obtain ⟨origin, entries, rfl, there⟩ := exists_table_of_key? h
  simp only [field, there, taken]
  rfl

theorem word64_of_finding {node : Node} {n : Nat} (h : finding node = .whole n)
    (fits : n < UInt64.size) : word64 node = .ok (UInt64.ofNat n) := by
  cases node with
  | leaf origin v =>
      cases h
      have range : 0 ≤ (n : Int) ∧ (n : Int) < UInt64.size := by omega
      rw [word64, if_pos range, Int.toNat_natCast]
  | list origin items => cases h
  | table origin entries => cases h

theorem field_word64 {node : Node} {name : String} {n : Nat}
    (h : node.found? [name] = some (.whole n)) (fits : n < UInt64.size) (place : Nat)
    (default : UInt64) : field node name place default word64 = .ok (UInt64.ofNat n) := by
  obtain ⟨value, there, shown⟩ := Option.bind_eq_some_iff.mp h
  exact field_of_key? there (word64_of_finding (Option.some.inj shown) fits) place default

/-- What is found through a name is found below what stands there. -/
theorem found?_below {node value : Node} {name : String} (h : node.key? name = some value)
    (names : List String) : node.found? (name :: names) = value.found? names := by
  rw [Setting.found?, h]
  rfl

end Settings

open Settings

variable {node : Node} {values : Key → Nat}

/-- The settings of a watch that have some values. -/
def WatchConfig.ofValues (values : Key → Nat) : WatchConfig where
  pollIntervalMs := .ofNat (values .pollInterval)
  maxWatchDurationMs := .ofNat (values .maxWatchDuration)
  eventBufferSize := .ofNat (values .eventBufferSize)

/-- The policy that has some values. -/
def BackoffPolicy.ofValues (values : Key → Nat) : BackoffPolicy where
  maxRetries := .ofNat (values .maxRetries)
  timeoutMs := .ofNat (values .timeout)
  baseDelayMs := .ofNat (values .baseDelay)
  maxDelayMs := .ofNat (values .maxDelay)

/-- The settings that have some values. -/
def InformerConfig.ofValues (values : Key → Nat) : InformerConfig where
  watch := .ofValues values
  retry := ⟨.ofValues values⟩

theorem InformerConfig.get_ofValues (fits : ∀ k, values k < UInt64.size) (k : Key) :
    ((ofValues values).get k).toNat = values k := by
  cases k <;> exact UInt64.toNat_ofNat_of_lt (fits _)

theorem WatchConfig.ofNode_of_found (fits : ∀ k, values k < UInt64.size)
    (poll : node.found? ["poll_interval_ms"] = some (.whole (values .pollInterval)))
    (life : node.found? ["max_watch_duration_ms"] = some (.whole (values .maxWatchDuration)))
    (buffer : node.found? ["event_buffer_size"] = some (.whole (values .eventBufferSize))) :
    WatchConfig.ofNode node = .ok (.ofValues values) := by
  obtain ⟨value, there, -⟩ := Option.bind_eq_some_iff.mp poll
  simp only [WatchConfig.ofNode, expectRecord_of_key? there, field_word64 poll (fits _),
    field_word64 life (fits _), field_word64 buffer (fits _), bind, Except.bind]
  rfl

theorem BackoffPolicy.ofNode_of_found (fits : ∀ k, values k < UInt64.size)
    (retries : node.found? ["max_retries"] = some (.whole (values .maxRetries)))
    (timeout : node.found? ["timeout_ms"] = some (.whole (values .timeout)))
    (base : node.found? ["base_delay_ms"] = some (.whole (values .baseDelay)))
    (max : node.found? ["max_delay_ms"] = some (.whole (values .maxDelay))) :
    BackoffPolicy.ofNode node = .ok (.ofValues values) := by
  obtain ⟨value, there, -⟩ := Option.bind_eq_some_iff.mp retries
  simp only [BackoffPolicy.ofNode, expectRecord_of_key? there, field_word64 retries (fits _),
    field_word64 timeout (fits _), field_word64 base (fits _), field_word64 max (fits _), bind,
    Except.bind]
  rfl

/-- A tree that holds numbers for all settings gives the settings that have these values. -/
theorem InformerConfig.ofNode_of_holds (holds : Holds node values)
    (fits : ∀ k, values k < UInt64.size) : InformerConfig.ofNode node = .ok (.ofValues values) := by
  obtain ⟨watch, watched, -⟩ := Option.bind_eq_some_iff.mp (holds .pollInterval)
  obtain ⟨retry, retried, below⟩ := Option.bind_eq_some_iff.mp (holds .maxRetries)
  obtain ⟨list, listed, -⟩ := Option.bind_eq_some_iff.mp below
  have inWatch (names : List String) := found?_below watched names
  have inList (names : List String) :
      node.found? ("retry" :: "list" :: names) = list.found? names := by
    rw [found?_below retried, found?_below listed]
  have ofWatch := WatchConfig.ofNode_of_found fits
    ((inWatch _).symm.trans (holds .pollInterval))
    ((inWatch _).symm.trans (holds .maxWatchDuration))
    ((inWatch _).symm.trans (holds .eventBufferSize))
  have ofList := BackoffPolicy.ofNode_of_found fits
    ((inList _).symm.trans (holds .maxRetries)) ((inList _).symm.trans (holds .timeout))
    ((inList _).symm.trans (holds .baseDelay)) ((inList _).symm.trans (holds .maxDelay))
  have ofRetry : RetryPolicies.ofNode retry = .ok ⟨.ofValues values⟩ := by
    simp only [RetryPolicies.ofNode, expectRecord_of_key? listed, field_of_key? listed ofList,
      bind, Except.bind]
    rfl
  simp only [InformerConfig.ofNode, expectRecord_of_key? watched, field_of_key? watched ofWatch,
    field_of_key? retried ofRetry, bind, Except.bind]
  rfl

/-! ## From settings to a layer -/

namespace Settings

/-- The numbers that a layer holds are below this one. -/
def wordBound : Nat := UInt64.size / 2

/-- A number as a node of a layer. -/
def wordNode (n : UInt64) : Node := .leaf none (.integer n.toNat)

theorem nodeOfWord_of_small {n : UInt64} (h : n.toNat < wordBound) :
    nodeOfWord n = .ok (wordNode n) := if_pos h

theorem nodeOfWord_of_large {n : UInt64} (h : wordBound ≤ n.toNat) :
    nodeOfWord n = .error (.tooLarge n.toNat) := if_neg (Nat.not_lt.mpr h)

end Settings

namespace InformerConfig

variable {c : InformerConfig}

/-- The layer of settings that are small enough. -/
def layerOf (c : InformerConfig) : Layer := [
  ("watch", .table none (nodeOfFields [
    ("poll_interval_ms", wordNode (c.get .pollInterval)),
    ("max_watch_duration_ms", wordNode (c.get .maxWatchDuration)),
    ("event_buffer_size", wordNode (c.get .eventBufferSize))])),
  ("retry", .table none (nodeOfFields [("list", .table none (nodeOfFields [
    ("max_retries", wordNode (c.get .maxRetries)),
    ("timeout_ms", wordNode (c.get .timeout)),
    ("base_delay_ms", wordNode (c.get .baseDelay)),
    ("max_delay_ms", wordNode (c.get .maxDelay))]))]))]

/-- The settings of a layer are made into nodes one by one. -/
theorem toLayer_eq (c : InformerConfig) : c.toLayer = (do
    let poll ← nodeOfWord (c.get .pollInterval)
    let life ← nodeOfWord (c.get .maxWatchDuration)
    let buffer ← nodeOfWord (c.get .eventBufferSize)
    let retries ← nodeOfWord (c.get .maxRetries)
    let timeout ← nodeOfWord (c.get .timeout)
    let base ← nodeOfWord (c.get .baseDelay)
    let max ← nodeOfWord (c.get .maxDelay)
    pure [("watch", .table none (nodeOfFields [("poll_interval_ms", poll),
        ("max_watch_duration_ms", life), ("event_buffer_size", buffer)])),
      ("retry", .table none (nodeOfFields [("list", .table none (nodeOfFields [
        ("max_retries", retries), ("timeout_ms", timeout), ("base_delay_ms", base),
        ("max_delay_ms", max)]))]))]) := by
  simp only [toLayer, WatchConfig.toNode, BackoffPolicy.toNode, bind_assoc, pure_bind]
  rfl

/-- Settings that are small enough are made into their layer. -/
theorem toLayer_of_small (small : ∀ k, (c.get k).toNat < wordBound) :
    c.toLayer = .ok c.layerOf := by
  simp only [toLayer_eq, nodeOfWord_of_small (small _), bind, Except.bind]
  rfl

/-- A result that is a refusal of one of the settings as too large. -/
def Refuses (c : InformerConfig) (result : Except LoadFault Layer) : Prop :=
  ∃ k, wordBound ≤ (c.get k).toNat ∧ result = .error (.tooLarge (c.get k).toNat)

theorem refuses_bind {k : Key} {next : Node → Except LoadFault Layer}
    (rest : (c.get k).toNat < wordBound → c.Refuses (next (wordNode (c.get k)))) :
    c.Refuses (nodeOfWord (c.get k) >>= next) := by
  rcases Nat.lt_or_ge (c.get k).toNat wordBound with small | large
  · rw [nodeOfWord_of_small small]
    exact rest small
  · rw [nodeOfWord_of_large large]
    exact ⟨k, large, rfl⟩

/-- Settings that are not are refused for one that is too large. -/
theorem toLayer_of_large (large : ∃ k, wordBound ≤ (c.get k).toNat) : c.Refuses c.toLayer := by
  obtain ⟨k, large⟩ := large
  rw [toLayer_eq]
  refine refuses_bind fun poll => refuses_bind fun life => refuses_bind fun buffer => ?_
  refine refuses_bind fun retries => refuses_bind fun timeout => refuses_bind fun base => ?_
  refine refuses_bind fun max => absurd ?_ (Nat.not_lt.mpr large)
  cases k <;> assumption

/-- What the layer of settings mentions: every setting with its value, and the tables above. -/
theorem spots_layerOf (c : InformerConfig) : c.layerOf.spots = [
    ⟨[.key "watch"], .table⟩,
    ⟨Key.pollInterval.path, .whole (c.get .pollInterval).toNat⟩,
    ⟨Key.maxWatchDuration.path, .whole (c.get .maxWatchDuration).toNat⟩,
    ⟨Key.eventBufferSize.path, .whole (c.get .eventBufferSize).toNat⟩,
    ⟨[.key "retry"], .table⟩,
    ⟨[.key "retry", .key "list"], .table⟩,
    ⟨Key.maxRetries.path, .whole (c.get .maxRetries).toNat⟩,
    ⟨Key.timeout.path, .whole (c.get .timeout).toNat⟩,
    ⟨Key.baseDelay.path, .whole (c.get .baseDelay).toNat⟩,
    ⟨Key.maxDelay.path, .whole (c.get .maxDelay).toNat⟩] := by
  have watch : Path.ofKey "watch" = [.key "watch"] := by decide
  have retry : Path.ofKey "retry" = [.key "retry"] := by decide
  have small : ∀ name ∈ ["watch", "poll_interval_ms", "max_watch_duration_ms",
      "event_buffer_size", "retry", "list", "max_retries", "timeout_ms", "base_delay_ms",
      "max_delay_ms"], lowercase name = name := by decide
  simp only [List.forall_mem_cons] at small
  simp [layerOf, Layer.spots, watch, retry, Setting.spots, Entries.spots, nodeOfFields, wordNode,
    Spot.under, Path.landing, Key.path, Key.names, Finding.whole, small]

end InformerConfig

end BugFeed
