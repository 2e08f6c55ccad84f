import BugFeed.Proofs.Informer.Run
import BugFeed.Proofs.Time.Token
import BugFeed.Proofs.Watch.NextVisible

/-!
# Opening a watch from a version

The version that an informer has come to passes through its token on the way to the watch. In the
years 0 to 9999 nothing but the part of the second is lost there, so the watch starts at the second
after the version (`plan_display`, `openWatch_display`), and a list is taken over with the second
of its latest change as its version (`takeOver_display`). In other years the token is refused, and
the informer is done (`openWatch_outcomes`, `takeOver_outcomes`).
-/

namespace BugFeed

set_option autoImplicit false

/-- A version that the year of its token does not keep from being read back: a year of four
digits. -/
structure ResourceVersion.Written (v : ResourceVersion) : Prop where
  low : 0 ≤ v.time.date.year
  high : v.time.date.year ≤ 9999

instance (v : ResourceVersion) : Decidable v.Written :=
  decidable_of_iff (0 ≤ v.time.date.year ∧ v.time.date.year ≤ 9999)
    ⟨fun h => ⟨h.1, h.2⟩, fun h => ⟨h.low, h.high⟩⟩

/-- After a version in a year of four digits there is a second from which a watch goes on. -/
theorem Feed.nextVisible?_truncate {v : ResourceVersion} (written : v.Written) :
    v.truncate.nextVisible? = some (startAfter v.truncate) := by
  have early : v.time.unixSeconds < DateTime.lastSecond := by
    have day := Date.lt_of_year_le written.high
    have second := v.time.second_lt
    simp only [DateTime.lastSecond, DateTime.unixSeconds, secondsPerDay] at *
    omega
  obtain ⟨n, next⟩ := ResourceVersion.exists_nextVisible (v := v.truncate) early
  rw [startAfter, next, Option.getD_some]

theorem Feed.startAfter_spec {v : ResourceVersion} (written : v.Written) :
    (startAfter v.truncate).time.unixSeconds = v.time.unixSeconds + 1 ∧
      (startAfter v.truncate).time.nano = 0 :=
  ResourceVersion.nextVisible?_eq_some (nextVisible?_truncate written)

namespace Informer

variable {i : Informer} {now : Nat} {present : Instant}

theorem plan_display {feed : Feed} {options : ListOptions} {v : ResourceVersion}
    (written : v.Written) (version : options.version = some v.display) :
    feed.plan options = .ok (feed.planFrom options v) := by
  have token : ResourceVersion.parse (options.version.getD "") = .ok v.truncate := by
    rw [version, Option.getD_some]
    exact ResourceVersion.parse_display written.low written.high
  refine Feed.plan_of_after? token ?_
  rw [WatchPlan.after?, Feed.nextVisible?_truncate written]
  rfl

/-- **A watch is opened at the second after the version of the informer.** -/
theorem openWatch_display (written : i.version.Written)
    (fits : max 1 i.feed.config.eventBufferSize.toNat ≤ Session.longestQueue) :
    i.openWatch now present =
      { i with
        phase := .watching
          (.start now present (i.feed.planFrom i.watchOptions i.version)) }.note now
            (.opened i.version) := by
  have opened : i.feed.watch i.watchOptions now present =
      .ok (.start now present (i.feed.planFrom i.watchOptions i.version)) := by
    rw [Feed.watch, plan_display written rfl]
    exact if_pos fits
  unfold openWatch
  rw [opened]

/-- A list is taken over with the second of its version. -/
theorem takeOver_display {list : BugList} {v : ResourceVersion} (written : v.Written)
    (version : list.version = v.display) :
    i.takeOver now present list =
      ({ i with store := .replace list.items, synced := true, version := v.truncate }.note now
        (.listed list)).openWatch now present := by
  rw [takeOver, version, ResourceVersion.parse_display written.low written.high]

/-! ## Versions in other years -/

theorem plan_of_signed {feed : Feed} {options : ListOptions} {v : ResourceVersion}
    (signed : ¬v.Written) (version : options.version = some v.display) :
    feed.plan options = .error ⟨v.display, .invalid⟩ := by
  have refused := ResourceVersion.parse_display_of_signed fun year => signed ⟨year.1, year.2⟩
  rw [Feed.plan, version, Option.getD_some, refused]
  rfl

theorem openWatch_of_signed (signed : ¬i.version.Written) : i.openWatch now present =
    i.finish now (.error (.token ⟨i.version.display, .invalid⟩)) := by
  have refused : i.feed.watch i.watchOptions now present =
      .error (.token ⟨i.version.display, .invalid⟩) := by
    rw [Feed.watch, plan_of_signed signed rfl]
  unfold openWatch
  rw [refused]

/-- An informer breaks down if its queue would be too long. -/
theorem openWatch_of_long (written : i.version.Written)
    (long : ¬max 1 i.feed.config.eventBufferSize.toNat ≤ Session.longestQueue) :
    i.openWatch now present = { i with phase := .broken } := by
  have refused : i.feed.watch i.watchOptions now present = .error .queueTooLong := by
    rw [Feed.watch, plan_display written rfl]
    exact if_neg long
  unfold openWatch
  rw [refused]

/-- An informer whose version is in a year of four digits opens a watch after it, or breaks down;
in another year it is done, because the token of its version is refused. -/
theorem openWatch_outcomes (i : Informer) (now : Nat) (present : Instant) :
    (i.version.Written ∧
        (i.openWatch now present =
            { i with
              phase := .watching
                (.start now present (i.feed.planFrom i.watchOptions i.version)) }.note now
                  (.opened i.version) ∨
          i.openWatch now present = { i with phase := .broken })) ∨
      (¬i.version.Written ∧ i.openWatch now present =
        i.finish now (.error (.token ⟨i.version.display, .invalid⟩))) := by
  by_cases written : i.version.Written
  · refine .inl ⟨written, ?_⟩
    by_cases fits : max 1 i.feed.config.eventBufferSize.toNat ≤ Session.longestQueue
    · exact .inl (openWatch_display written fits)
    · exact .inr (openWatch_of_long written fits)
  · exact .inr ⟨written, openWatch_of_signed written⟩

/-- A list whose version is in a year of four digits is taken over, and a watch opened after it; in
another year the informer is done, because the token of the list is refused. -/
theorem takeOver_outcomes {list : BugList} {v : ResourceVersion}
    (version : list.version = v.display) (i : Informer) (now : Nat) (present : Instant) :
    (v.Written ∧ i.takeOver now present list =
        ({ i with store := .replace list.items, synced := true, version := v.truncate }.note now
          (.listed list)).openWatch now present) ∨
      (¬v.Written ∧ i.takeOver now present list =
        i.finish now (.error (.token ⟨v.display, .invalid⟩))) := by
  by_cases written : v.Written
  · exact .inl ⟨written, takeOver_display written version⟩
  · refine .inr ⟨written, ?_⟩
    have refused := ResourceVersion.parse_display_of_signed fun year => written ⟨year.1, year.2⟩
    rw [takeOver, version, refused]

end Informer

/-! ## An informer that lists one bug -/

/-- A closed bug of which little else is known. -/
def BugInfo.closedSample (id : UInt64) (created changed : Nat) : BugInfo :=
  { sample id created changed with status := "CLOSED" }

/-- A feed that hides closed bugs. -/
def Feed.unclosed : Feed := { includes := fun b => b.status != "CLOSED" }

namespace Informer

/-- An informer that has just begun to list at the epoch. -/
def listingSample (feed : Feed) : Informer :=
  ((opened feed .empty {} 0 false).beginList 0 .epoch).1

/-- An informer that has just listed one bug at the epoch. -/
def watchingSample (feed : Feed) : Informer :=
  let list : BugList := .ofResponse ⟨[.sample 1 0 5]⟩ feed.includes ⟨.epoch⟩
  let listed := { listingSample feed with
    store := .replace list.items, synced := true, version := ⟨.onFirstDay 5⟩ }.note 0 (.listed list)
  { listed with
    phase := .watching (.start 0 .epoch (feed.planFrom listed.watchOptions listed.version)) }.note 0
      (.opened listed.version)

/-- An informer that has listed one bug, during the first search of its watch. -/
def searchingSample (feed : Feed) : Informer :=
  { watchingSample feed with
    phase := .watching (.firstSearch (feed.planFrom (watchingSample feed).watchOptions
      ⟨.onFirstDay 5⟩) 16000) }

theorem answer_listingSample {feed : Feed}
    (fits : max 1 feed.config.eventBufferSize.toNat ≤ Session.longestQueue) :
    (listingSample feed).answer 0 .epoch (.ok ⟨[.sample 1 0 5]⟩) = watchingSample feed := by
  have version : ResourceVersion.Written ⟨.onFirstDay 5⟩ := by decide
  have taken : (listingSample feed).takeOver 0 .epoch
      (.ofResponse ⟨[.sample 1 0 5]⟩ feed.includes ⟨.epoch⟩) = _ := takeOver_display version rfl
  rwa [openWatch_display version fits] at taken

theorem watchingSample_reached {feed : Feed}
    (fits : max 1 feed.config.eventBufferSize.toNat ≤ Session.longestQueue) (cues : List Cue) :
    (opened feed .empty {} 0 false).run?
        (.move 0 .epoch :: .answer 0 .epoch (.ok ⟨[.sample 1 0 5]⟩) :: cues) =
      (watchingSample feed).run? cues := by
  have asked : (opened feed .empty {} 0 false).follow? (.move 0 .epoch) =
      some (listingSample feed, some (feed.argsFor (listingSample feed).listOptions)) := rfl
  exact (run?_cons asked _).trans (run?_cons (follow?_answer (answer_listingSample fits)) _)

end Informer

end BugFeed
