import BugFeed.Proofs.Informer.NextSearch
import BugFeed.Proofs.Store.Contents

/-!
# What an informer writes

An informer writes to its store on two occasions: when the answer for a list comes, whose version
can be read back, and when it takes an event about a bug from its watch (`writes?`). Both happen
only while nobody has asked it to shut down. All else leaves the store alone: attempts to list that
fail or take too long, answers that come too late, failed polls, faults, pauses and the end of the
run.

So what an informer keeps after a run is what it kept before, with the writes of the run made in
their order (`kept_of_run`), and every property of the store follows from the list of these writes.
-/

namespace BugFeed

set_option autoImplicit false

/-! ## Writes -/

/-- Something that is written to a store. -/
inductive Write where
  /-- A list takes the place of all copies. -/
  | list (list : BugList)
  /-- An event about a bug is taken over. -/
  | event (event : WatchEvent)

/-- What an informer keeps: its copies, and whether they come from a list. -/
structure Kept where
  store : Store
  synced : Bool

namespace Kept

def write (k : Kept) : Write → Kept
  | .list list => ⟨.replace list.items, true⟩
  | .event event => { k with store := (k.store.apply event).1 }

def writeAll (k : Kept) (writes : List Write) : Kept := writes.foldl write k

theorem writeAll_append (k : Kept) (first second : List Write) :
    k.writeAll (first ++ second) = (k.writeAll first).writeAll second := List.foldl_append

/-- The copies come from a list exactly if one was written. -/
theorem synced_writeAll {k : Kept} {writes : List Write} :
    (k.writeAll writes).synced = true ↔ k.synced = true ∨ ∃ list, .list list ∈ writes := by
  induction writes generalizing k with
  | nil => simp [writeAll]
  | cons w writes ih =>
      change ((k.write w).writeAll writes).synced = true ↔ _
      rw [ih]
      cases w with
      | list list => simp [write]
      | event event => simp [write]

/-- Copies give way only to newer ones as long as no list is written. -/
theorem exists_le_writeAll {k : Kept} {writes : List Write}
    (unlisted : ∀ list, .list list ∉ writes) {name : String} {b : Bug}
    (found : k.store.get? name = some b) :
    ∃ later, (k.writeAll writes).store.get? name = some later ∧
      b.lastChange ≤ later.lastChange := by
  induction writes generalizing k b with
  | nil => exact ⟨b, found, le_refl _⟩
  | cons w writes ih =>
      cases w with
      | list list => exact absurd List.mem_cons_self (unlisted list)
      | event event =>
          obtain ⟨next, still, newer⟩ := Store.exists_le_get?_apply found event
          obtain ⟨later, kept, newest⟩ :=
            ih (k := k.write (.event event))
              (fun list member => unlisted list (List.mem_cons_of_mem _ member)) still
          exact ⟨later, kept, le_trans newer newest⟩

end Kept

namespace Informer

variable {i j k : Informer} {now : Nat} {present : Instant} {args : Option SearchArgs}

def kept (i : Informer) : Kept := ⟨i.store, i.synced⟩

/-- What an informer writes at a cue. -/
def writes? (i : Informer) : Cue → Option Write
  | .answer _ _ (.ok found) =>
    match i.phase with
    | .listing _ _ anchor =>
      match i.stopping,
        ResourceVersion.parse (BugList.ofResponse found i.feed.includes anchor).version with
      | false, .ok _ => some (.list (.ofResponse found i.feed.includes anchor))
      | _, _ => none
    | _ => none
  | .move now _ =>
    match i.phase, i.stopping with
    | .watching s, false =>
      (s.take? now).bind fun (event, _) => event.bug?.map fun _ => .event event
    | _, _ => none
  | _ => none

/-- What an informer writes in a run, first one first. -/
def writes (i : Informer) (cues : List Cue) : List Write := i.along writes? cues

/-- **An informer writes a list that it is answered, or an event about a bug that its watch gives
it**, and only while nobody has asked it to shut down. -/
theorem writes?_cases {cue : Cue} {w : Write} (h : i.writes? cue = some w) :
    i.stopping = false ∧
      ((∃ now present found retry deadline anchor version,
          cue = .answer now present (.ok found) ∧ i.phase = .listing retry deadline anchor ∧
          ResourceVersion.parse (BugList.ofResponse found i.feed.includes anchor).version =
            .ok version ∧
          w = .list (.ofResponse found i.feed.includes anchor)) ∨
        ∃ now present s t event b, cue = .move now present ∧ i.phase = .watching s ∧
          s.take? now = some (event, t) ∧ event.bug? = some b ∧ w = .event event) := by
  unfold writes? at h
  split at h
  · rename_i now present found
    split at h
    · rename_i retry deadline anchor phase
      split at h
      · rename_i version running read
        exact ⟨running, .inl ⟨now, present, found, retry, deadline, anchor, version, rfl, phase,
          read, (Option.some.inj h).symm⟩⟩
      · cases h
    · cases h
  · rename_i now present
    split at h
    · rename_i s phase running
      obtain ⟨⟨event, t⟩, taken, about⟩ := Option.bind_eq_some_iff.mp h
      obtain ⟨b, reports, rfl⟩ := Option.map_eq_some_iff.mp about
      exact ⟨running, .inr ⟨now, present, s, t, event, b, rfl, phase, taken, reports, rfl⟩⟩
    · cases h
  · cases h

/-- An informer that has been asked to shut down writes nothing. -/
theorem writes?_of_stopping (stopping : i.stopping = true) (cue : Cue) : i.writes? cue = none := by
  cases written : i.writes? cue with
  | none => rfl
  | some w =>
      rw [(writes?_cases written).1] at stopping
      cases stopping

/-! ## What each part of a move keeps -/

theorem kept_openWatch (i : Informer) (now : Nat) (present : Instant) :
    (i.openWatch now present).kept = i.kept := by
  rcases i.openWatch_cases now present with ⟨plan, _, opened⟩ | ⟨fault, finished⟩ | broken
  · rw [opened]
    rfl
  · rw [finished]
    rfl
  · rw [broken]
    rfl

theorem kept_rewatch (i : Informer) (now : Nat) (present : Instant) :
    (i.rewatch now present).kept = i.kept := by
  rw [rewatch, kept_openWatch]
  rfl

theorem kept_beginList (i : Informer) (now : Nat) (present : Instant) :
    (i.beginList now present).1.kept = i.kept := by
  rcases i.beginList_cases now present with asked | finished
  · rw [asked]
    rfl
  · rw [finished]
    rfl

theorem kept_attemptFailed (i : Informer) (now : Nat) (retry : Retry) (fault : Fault) :
    (i.attemptFailed now retry fault).kept = i.kept := by
  rcases i.attemptFailed_cases now retry fault with ⟨next, wake, retrying⟩ | finished
  · rw [retrying]
    rfl
  · rw [finished]
    rfl

/-- A list is written if its version can be read back; otherwise the informer is done. -/
theorem kept_takeOver (i : Informer) (now : Nat) (present : Instant) (list : BugList) :
    (i.takeOver now present list).kept =
      match ResourceVersion.parse list.version with
      | .ok _ => i.kept.write (.list list)
      | .error _ => i.kept := by
  rw [takeOver]
  cases ResourceVersion.parse list.version with
  | error fault => rfl
  | ok version =>
      simp only
      rw [kept_openWatch]
      rfl

/-- An event about a bug is written, one about a fault is not. -/
theorem kept_consume (i : Informer) (now : Nat) (present : Instant) (event : WatchEvent) :
    (i.consume now present event).kept =
      i.kept.writeAll (event.bug?.map fun _ => .event event).toList := by
  rcases i.consume_cases now present event with
    ⟨b, about, absorbed⟩ | ⟨status, rfl, rewatched | rested⟩
  · rw [absorbed, about]
    rfl
  · rw [rewatched, kept_rewatch]
    rfl
  · rw [rested]
    rfl

theorem kept_moveWatch {move : Session → Option (Session × Option SearchArgs)}
    (h : i.moveWatch? move = some (j, args)) : j.kept = i.kept := by
  unfold moveWatch? at h
  split at h
  · obtain ⟨⟨t, asked⟩, _, same⟩ := Option.map_eq_some_iff.mp h
    cases same
    rfl
  · obtain ⟨⟨t, asked⟩, _, same⟩ := Option.map_eq_some_iff.mp h
    cases same
    rfl
  · cases h

/-- What an informer writes at a move of its own is what it takes from its watch. -/
theorem kept_turn (turn : Turn i now present j args) :
    j.kept = i.kept.writeAll (i.writes? (.move now present)).toList := by
  have idle : j.kept = i.kept → i.writes? (.move now present) = none →
      j.kept = i.kept.writeAll (i.writes? (.move now present)).toList := by
    intro same nothing
    rw [nothing, same]
    rfl
  cases turn with
  | giveUp stopping | stop stopping | discard stopping | drained stopping =>
      exact idle rfl (writes?_of_stopping stopping _)
  | list _ phase => exact idle (i.kept_beginList now present) (by simp [writes?, phase])
  | timeOut _ phase => exact idle (i.kept_attemptFailed now _ _) (by simp [writes?, phase])
  | retry _ phase => exact idle rfl (by simp [writes?, phase])
  | @take s t event running phase taken =>
      have written : i.writes? (.move now present) = event.bug?.map fun _ => .event event := by
        simp [writes?, phase, running, taken]
      rw [written]
      exact kept_consume { i with phase := .watching t } now present event
  | closed running phase untaken =>
      refine idle (kept_rewatch (i.note now (.closed none)) now present) ?_
      simp [writes?, phase, running, untaken]
  | watch running phase untaken => exact idle rfl (by simp [writes?, phase, running, untaken])
  | drain phase => exact idle rfl (by simp [writes?, phase])

/-- An informer that is given an answer writes the list that it makes of it. -/
theorem kept_answer (i : Informer) (now : Nat) (present : Instant)
    (response : Except TransportFault SearchResponse) :
    (i.answer now present response).kept =
      i.kept.writeAll (i.writes? (.answer now present response)).toList := by
  have heard := heard_answer i now present response
  cases response with
  | error fault =>
      generalize i.answer now present (.error fault) = j at heard
      cases heard with
      | failed => exact kept_attemptFailed i now _ _
      | ignored | watch | drain => rfl
  | ok found =>
      cases phase : i.phase with
      | listing retry deadline anchor =>
          cases stopping : i.stopping with
          | true =>
              simp only [answer, phase, stopping, if_true, writes?]
              rfl
          | false =>
              have taken := i.kept_takeOver now present (.ofResponse found i.feed.includes anchor)
              simp only [answer, phase, stopping, Feed.listOf, writes?, Bool.false_eq_true,
                if_false]
              rw [taken]
              cases ResourceVersion.parse (BugList.ofResponse found i.feed.includes anchor).version
                <;> rfl
      | watching s | draining s =>
          simp only [answer, phase, writes?]
          rfl
      | idle | resting | retrying | finished | broken =>
          simp only [answer, phase, writes?]
          rfl

/-! ## Runs -/

/-- **What an informer keeps changes at a cue by what it writes.** -/
theorem kept_follow {cue : Cue} (h : i.follow? cue = some (j, args)) :
    j.kept = i.kept.writeAll (i.writes? cue).toList := by
  cases cue with
  | move now present => exact kept_turn (turn_of_move h)
  | expire now => exact kept_moveWatch h
  | proceed now => exact kept_moveWatch h
  | answer now present response =>
      cases h
      exact i.kept_answer now present response
  | shutDown =>
      cases h
      rfl

/-- **What an informer keeps after a run is what it kept before, with the writes of the run.** -/
theorem kept_of_run {cues : List Cue} (run : i.run? cues = some k) :
    k.kept = i.kept.writeAll (i.writes cues) := by
  induction cues generalizing i with
  | nil =>
      cases run
      rfl
  | cons cue cues ih =>
      obtain ⟨⟨j, args⟩, first, rest⟩ := Option.bind_eq_some_iff.mp run
      have all : i.writes (cue :: cues) = (i.writes? cue).toList ++ j.writes cues :=
        along_cons first cues
      rw [ih rest, kept_follow first, all, Kept.writeAll_append]

/-- An informer that has opened a watch from a version in a year of four digits is not done. -/
theorem outcome?_openWatch (written : i.version.Written) (now : Nat) (present : Instant) :
    (i.openWatch now present).outcome? = none := by
  rcases i.openWatch_outcomes now present with ⟨_, opened | broken⟩ | ⟨signed, _⟩
  · rw [opened]
    rfl
  · rw [broken]
    rfl
  · exact absurd written signed

/-- An informer that writes goes on. -/
theorem outcome?_of_writes {cue : Cue} {w : Write} (written : i.writes? cue = some w)
    (h : i.follow? cue = some (j, args)) : j.outcome? = none := by
  obtain ⟨running, ⟨now, present, found, retry, deadline, anchor, version, rfl, phase, read, _⟩ |
    ⟨now, present, s, t, event, b, rfl, phase, taken, about, _⟩⟩ := writes?_cases written
  · have outcomes := takeOver_outcomes
      (rfl : (BugList.ofResponse found i.feed.includes anchor).version =
        (found.latestChange?.getD anchor).display) i now present
    have heard : j = i.takeOver now present (.ofResponse found i.feed.includes anchor) := by
      simp only [follow?, answer, phase, running, Feed.listOf, Bool.false_eq_true, if_false,
        Option.some.injEq, Prod.mk.injEq] at h
      exact h.1.symm
    rcases outcomes with ⟨years, taken⟩ | ⟨signed, _⟩
    · rw [heard, taken]
      exact outcome?_openWatch (by exact ⟨years.low, years.high⟩) now present
    · have refused := ResourceVersion.parse_display_of_signed
        fun year => signed ⟨year.1, year.2⟩
      rw [BugList.ofResponse, refused] at read
      cases read
  · have moved : i.proceed? now present = some (j, args) := by
      simpa only [follow?, move?, running, Bool.false_eq_true, if_false] using h
    have consumed : ({ i with phase := .watching t } : Informer).consume now present event = j := by
      simp only [proceed?, phase, taken, Option.some.injEq, Prod.mk.injEq] at moved
      exact moved.1
    have absorbed : j = ({ i with phase := .watching t } : Informer).absorb now event b := by
      rcases ({ i with phase := .watching t } : Informer).consume_cases now present event with
        ⟨c, reports, outcome⟩ | ⟨status, rfl, _⟩
      · rw [about] at reports
        cases reports
        exact consumed.symm.trans outcome
      · cases about
    rw [absorbed]
    rfl

/-- **An informer writes lists and events of its watch, and nothing else changes what it keeps.**

* What it keeps after a run is what it kept before, with the writes of the run made in their order,
  and it has synced exactly if it had before or has written a list.
* When a list has just been written, the store holds under each name the last of its bugs of this
  name, and nothing else.
* As long as no list is written, no copy is lost, and each copy gives way only to one that did not
  change earlier.
* A cue at which the store or the mark of a list changes is the answer to a search for the list, of
  which a list is made whose version can be read back, or a move at which the informer takes an
  event about a bug from its watch. Nobody has asked it to shut down then, and it is not done
  after it. So attempts to list that fail, take too long or are given up, failed polls, faults,
  pauses and the end of a run, with an error or without, leave both alone. -/
theorem written_only_by_lists_and_events {cues : List Cue} (run : i.run? cues = some k) :
    k.kept = i.kept.writeAll (i.writes cues) ∧
    (k.synced = true ↔ i.synced = true ∨ ∃ list, .list list ∈ i.writes cues) ∧
    (∀ list, (i.writes cues).getLast? = some (.list list) → ∀ name,
      k.store.get? name = (list.items.filter fun b => b.name = name).getLast?) ∧
    ((∀ list, .list list ∉ i.writes cues) → ∀ name b, i.store.get? name = some b →
      ∃ later, k.store.get? name = some later ∧ b.lastChange ≤ later.lastChange) ∧
    ∀ cue j args, k.follow? cue = some (j, args) → j.store ≠ k.store ∨ j.synced ≠ k.synced →
      k.stopping = false ∧ j.outcome? = none ∧
      ((∃ now present found retry deadline anchor version,
          cue = .answer now present (.ok found) ∧ k.phase = .listing retry deadline anchor ∧
          ResourceVersion.parse (BugList.ofResponse found k.feed.includes anchor).version =
            .ok version ∧
          j.kept = k.kept.write (.list (.ofResponse found k.feed.includes anchor))) ∨
        ∃ now present s t event b, cue = .move now present ∧ k.phase = .watching s ∧
          s.take? now = some (event, t) ∧ event.bug? = some b ∧
          j.kept = k.kept.write (.event event)) := by
  have kept := kept_of_run run
  have store : k.store = (i.kept.writeAll (i.writes cues)).store := congrArg Kept.store kept
  have synced : k.synced = (i.kept.writeAll (i.writes cues)).synced := congrArg Kept.synced kept
  refine ⟨kept, ?_, ?_, ?_, ?_⟩
  · rw [synced]
    exact Kept.synced_writeAll
  · intro list last name
    obtain ⟨before, all⟩ := List.getLast?_eq_some_iff.mp last
    rw [store, all, Kept.writeAll_append]
    exact Store.get?_replace_eq_getLast? list.items name
  · intro unlisted name b found
    rw [store]
    exact Kept.exists_le_writeAll (k := i.kept) unlisted found
  · intro cue j args follows changed
    have after := kept_follow follows
    cases written : k.writes? cue with
    | none =>
        rw [written] at after
        have same : j.store = k.store ∧ j.synced = k.synced :=
          ⟨congrArg Kept.store after, congrArg Kept.synced after⟩
        exact (changed.elim (fun other => other same.1) fun other => other same.2).elim
    | some w =>
        rw [written] at after
        obtain ⟨running, lists | takes⟩ := writes?_cases written
        · obtain ⟨now, present, found, retry, deadline, anchor, version, cue, phase, read, rfl⟩ :=
            lists
          exact ⟨running, outcome?_of_writes written follows, .inl ⟨now, present, found, retry,
            deadline, anchor, version, cue, phase, read, after⟩⟩
        · obtain ⟨now, present, s, t, event, b, cue, phase, taken, about, rfl⟩ := takes
          exact ⟨running, outcome?_of_writes written follows, .inr ⟨now, present, s, t, event, b,
            cue, phase, taken, about, after⟩⟩

/-- An informer that watches searches, is told of a newer change of a bug that it has, and takes it
over. -/
def untilNewerCopy : List Cue :=
  [.proceed 16000, .answer 16000 .epoch (.ok ⟨[.sample 1 0 20]⟩), .proceed 16000, .proceed 16000,
    .move 16000 .epoch]

/-- The change that its watch gives it is all that the informer writes, and the copy from the list
gives way to a newer one. -/
theorem newer_copy_written :
    ∃ k, (watchingSample {}).run? untilNewerCopy = some k ∧
      (watchingSample {}).writes untilNewerCopy = [.event (.modified (.ofInfo (.sample 1 0 20)))] ∧
      k.synced = true ∧
      ∃ later, k.store.get? (Bug.nameOf 1) = some later ∧ .onFirstDay 5 ≤ later.lastChange := by
  have asked : (watchingSample {}).follow? (.proceed 16000) =
      some (searchingSample {}, some { changedSince := some (.onFirstDay 6) }) := rfl
  have latest : (SearchResponse.mk [.sample 1 0 20]).latestChange? = some ⟨.onFirstDay 20⟩ := rfl
  have heard := follow?_answer (answer_accepted (i := searchingSample {}) rfl 16000 .epoch rfl rfl
    latest (by decide) (WatchPlan.batch_of_pairwise (by decide)))
  obtain ⟨k, run⟩ : ∃ k, (watchingSample {}).run? untilNewerCopy = some k :=
    ⟨_, (run?_cons asked _).trans ((run?_cons heard
      [.proceed 16000, .proceed 16000, .move 16000 .epoch]).trans rfl)⟩
  have writes : (watchingSample {}).writes untilNewerCopy =
      [.event (.modified (.ofInfo (.sample 1 0 20)))] :=
    (along_cons asked _).trans ((congrArg _ (along_cons heard _)).trans rfl)
  obtain ⟨_, synced, _, newer, _⟩ := written_only_by_lists_and_events run
  have unlisted : ∀ list, .list list ∉ (watchingSample {}).writes untilNewerCopy := by
    intro list member
    rw [writes] at member
    simp at member
  have found : (watchingSample {}).store.get? (Bug.nameOf 1) = some (.ofInfo (.sample 1 0 5)) := rfl
  obtain ⟨later, kept, newest⟩ := newer unlisted _ _ found
  have change : (Bug.ofInfo (.sample 1 0 5)).lastChange = .onFirstDay 5 := rfl
  exact ⟨k, run, writes, synced.mpr (.inl rfl), later, kept, change ▸ newest⟩

end Informer

end BugFeed
