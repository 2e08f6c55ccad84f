import BugFeed.Proofs.Watch.Repeats

/-!
# New and changed bugs

A session does not remember which bugs it has handed over. Whether an event tells of a new bug or
of a changed one is read off the bug alone: it is new if it was created where the session starts
to watch or later (`WatchPlan.eventOf`). The start does not move with the watermark, so all events
about a bug are of one kind as long as the answers agree on which side of the start it was created
(`kind_by_creation`), and a new bug that changes again is handed over as new again
(`added_again_on_change`).
-/

namespace BugFeed

set_option autoImplicit false

/-- The answer to a poll reports a bug. -/
def Poll.Reports (p : Poll) (f : BugInfo) : Prop :=
  ∃ found, p.answer = some (.ok found) ∧ f ∈ found.bugs

namespace WatchPlan

variable {plan : WatchPlan} {b : Bug}

theorem eventOf_of_new (new : plan.start.time ≤ b.created) : plan.eventOf b = .added b :=
  if_pos new

theorem eventOf_of_old (old : b.created < plan.start.time) : plan.eventOf b = .modified b :=
  if_neg (not_le.mpr old)

end WatchPlan

section History

variable {plan : WatchPlan} {polls : List Poll} {p : Poll} {watermark : ResourceVersion}

/-- The changes that a poll may hand over are reported by its answer. -/
theorem Poll.reports_of_mem_batch {b : Bug} (member : b ∈ p.batch plan) :
    ∃ f, p.Reports f ∧ Bug.ofInfo f = b := by
  rw [batch] at member
  split at member
  · rename_i found answered
    obtain ⟨f, inside, _, same, _⟩ := plan.mem_batch.mp member
    exact ⟨f, ⟨found, answered, inside⟩, same⟩
  · cases member

/-- **Each event of a poll is the event of a bug that its answer reports**, whatever was handed
over before it. -/
theorem History.eventOf_of_mem (history : History plan polls watermark) (member : p ∈ polls)
    {e : WatchEvent} (told : e ∈ p.events) :
    ∃ f, p.Reports f ∧ e = plan.eventOf (.ofInfo f) := by
  obtain ⟨done, rest, hands⟩ := history.handsOver member
  rw [hands.events] at told
  obtain ⟨b, inside, rfl⟩ := List.mem_map.mp told
  have reported : b ∈ p.reported := by rwa [hands.reported]
  obtain ⟨f, reports, rfl⟩ := Poll.reports_of_mem_batch (hands.mem_batch reported)
  exact ⟨f, reports, rfl⟩

end History

namespace Session

/-- An event about a bug is an event of one of the polls. -/
theorem Passes.poll_of_delivered {s : Session} (passes : s.Passes) {e : WatchEvent} {b : Bug}
    (member : e ∈ s.delivered) (about : e.bug? = some b) : ∃ p ∈ s.polls, e ∈ p.events := by
  obtain ⟨fault, delivered, _⟩ := passes.told
  rw [delivered] at member
  rcases List.mem_append.mp member with change | fatal
  · obtain ⟨p, inside, told⟩ := List.mem_flatMap.mp change
    exact ⟨p, List.mem_reverse.mp inside, told⟩
  · obtain ⟨status, _, rfl⟩ := List.mem_map.mp fatal
    cases about

/-- Each event about a bug is the event of the bug as one of the answers reports it. -/
theorem eventOf_of_delivered {now : Nat} {present : Instant} {plan : WatchPlan} {s : Session}
    {cues : List Cue} (run : (start now present plan).run? cues = some s) {e : WatchEvent} {b : Bug}
    (member : e ∈ s.delivered) (about : e.bug? = some b) :
    e = plan.eventOf b ∧ ∃ p ∈ s.polls, ∃ f, p.Reports f ∧ Bug.ofInfo f = b := by
  obtain ⟨p, inside, told⟩ := (passes_of_run run).poll_of_delivered member about
  obtain ⟨f, reports, rfl⟩ := (history_of_run run).eventOf_of_mem inside told
  rw [plan.bug?_eventOf] at about
  cases about
  exact ⟨rfl, p, inside, f, reports, rfl⟩

/-- **Which events tell of a new bug.** Let a session be opened after a version, with whatever
answers. Every event about a bug is of the bug as an answer reports it, and tells of a new bug if
this was created at the first instant that the version has not covered or later, of a changed bug
otherwise, be it the first event about the bug or a later one. So if all answers that report an id
say that it was created at this instant or later, no event about it ever tells of a changed bug,
and if all say that it was created before, none ever tells of a new one. If no answer repeats an
id, a poll hands over one event about it at most. -/
theorem kind_by_creation {args : SearchArgs} {includes : BugInfo → Bool} {config : WatchConfig}
    {version : ResourceVersion} {plan : WatchPlan}
    (opened : WatchPlan.after? args includes config version = some plan) {now : Nat}
    {present : Instant} {s : Session} {cues : List Cue}
    (run : (start now present plan).run? cues = some s) :
    ∃ first, version.nextVisible? = some first ∧
      (∀ e ∈ s.delivered, ∀ b, e.bug? = some b →
        (∃ p ∈ s.polls, ∃ f, p.Reports f ∧ Bug.ofInfo f = b) ∧
          e = if first.time ≤ b.created then .added b else .modified b) ∧
      (∀ id, (∀ p ∈ s.polls, ∀ f, p.Reports f → f.id = id → first.time ≤ f.created) →
        ∀ e ∈ s.delivered, ∀ b, e.bug? = some b → b.id = id → e = .added b) ∧
      (∀ id, (∀ p ∈ s.polls, ∀ f, p.Reports f → f.id = id → f.created < first.time) →
        ∀ e ∈ s.delivered, ∀ b, e.bug? = some b → b.id = id → e = .modified b) ∧
      ((∀ p ∈ s.polls, ∀ found, p.answer = some (.ok found) →
          (found.bugs.map BugInfo.id).Nodup) →
        ∀ p ∈ s.polls, (p.reported.map Bug.id).Nodup) := by
  refine ⟨plan.start, WatchPlan.start_of_after? opened, ?_, ?_, ?_, ?_⟩
  · intro e member b about
    obtain ⟨event, reported⟩ := eventOf_of_delivered run member about
    exact ⟨reported, event⟩
  · intro id new e member b about same
    obtain ⟨event, p, inside, f, reports, rfl⟩ := eventOf_of_delivered run member about
    exact event.trans (WatchPlan.eventOf_of_new (new p inside f reports same))
  · intro id old e member b about same
    obtain ⟨event, p, inside, f, reports, rfl⟩ := eventOf_of_delivered run member about
    exact event.trans (WatchPlan.eventOf_of_old (old p inside f reports same))
  · intro apart p member
    obtain ⟨done, rest, hands⟩ := (history_of_run run).handsOver member
    exact hands.nodup BugInfo.id (apart p member)

/-- Of two changes in one answer one is of a bug from before the start, the other of a new one. -/
theorem changed_and_new_in_one_answer :
    ∃ s, (start 0 .epoch (.sample 6)).run?
        [.proceed 7000, .answer 7000 (.ok ⟨[.sample 1 0 8, .sample 2 7 8]⟩), .proceed 7000,
          .take 7000, .proceed 7000] = some s ∧
      s.delivered = [.modified (.ofInfo (.sample 1 0 8)), .added (.ofInfo (.sample 2 7 8))] ∧
      ∃ first, (ResourceVersion.mk (.onFirstDay 5)).nextVisible? = some first ∧
        WatchEvent.added (.ofInfo (.sample 2 7 8)) =
          if first.time ≤ .onFirstDay 7 then .added (.ofInfo (.sample 2 7 8))
          else .modified (.ofInfo (.sample 2 7 8)) := by
  have batch : (WatchPlan.sample 6).batch ⟨.onFirstDay 6⟩ ⟨[.sample 1 0 8, .sample 2 7 8]⟩ =
      [.ofInfo (.sample 1 0 8), .ofInfo (.sample 2 7 8)] :=
    WatchPlan.batch_of_pairwise (by decide)
  have latest : (SearchResponse.mk [.sample 1 0 8, .sample 2 7 8]).latestChange? =
      some ⟨.onFirstDay 8⟩ := rfl
  have run := (run?_accepted run?_firstSearch 7000 rfl rfl latest (by decide) batch
    [.proceed 7000, .take 7000, .proceed 7000]).trans rfl
  obtain ⟨first, visible, kind, _⟩ := kind_by_creation WatchPlan.after?_sample run
  refine ⟨_, run, rfl, first, visible, ?_⟩
  exact (kind _ (List.mem_cons_of_mem _ List.mem_cons_self) _ rfl).2

/-- A new bug that changes between two searches is handed over as new both times, although no
answer repeats an id. -/
theorem added_again_on_change :
    WatchPlan.after? {} (fun _ => true)
        { pollIntervalMs := 1000, maxWatchDurationMs := 60000, eventBufferSize := 0 }
        ⟨.onFirstDay 5⟩ = some (.sample 6) ∧
      ∃ s, (start 0 .epoch (.sample 6)).run?
          [.proceed 7000, .answer 7000 (.ok ⟨[.sample 1 7 8]⟩), .proceed 7000, .take 7000,
            .proceed 7000, .proceed 8000, .answer 8000 (.ok ⟨[.sample 1 7 9]⟩), .proceed 8000,
            .take 8000] = some s ∧
        (∀ p ∈ s.polls, ∀ found, p.answer = some (.ok found) →
          (found.bugs.map BugInfo.id).Nodup) ∧
        s.received = [.added (.ofInfo (.sample 1 7 8)), .added (.ofInfo (.sample 1 7 9))] := by
  have batch₁ : (WatchPlan.sample 6).batch ⟨.onFirstDay 6⟩ ⟨[.sample 1 7 8]⟩ =
      [.ofInfo (.sample 1 7 8)] := WatchPlan.batch_of_pairwise (by decide)
  have batch₂ : (WatchPlan.sample 6).batch ⟨.onFirstDay 8⟩ ⟨[.sample 1 7 9]⟩ =
      [.ofInfo (.sample 1 7 9)] := WatchPlan.batch_of_pairwise (by decide)
  have latest₁ : (SearchResponse.mk [.sample 1 7 8]).latestChange? = some ⟨.onFirstDay 8⟩ := rfl
  have latest₂ : (SearchResponse.mk [.sample 1 7 9]).latestChange? = some ⟨.onFirstDay 9⟩ := rfl
  have run₂ := (run?_accepted run?_firstSearch 7000 rfl rfl latest₁ (by decide) batch₁
    [.proceed 7000, .take 7000, .proceed 7000, .proceed 8000]).trans rfl
  have run := (run?_accepted run₂ 8000 rfl rfl latest₂ (by decide) batch₂
    [.proceed 8000, .take 8000]).trans rfl
  -- From here on only the polls of the last state are looked at, not the state itself.
  obtain ⟨s, run, polls, received⟩ : ∃ s, (start 0 .epoch (.sample 6)).run? _ = some s ∧
      s.polls.map Poll.answer = [some (.ok ⟨[.sample 1 7 9]⟩), some (.ok ⟨[.sample 1 7 8]⟩)] ∧
      s.received = [.added (.ofInfo (.sample 1 7 8)), .added (.ofInfo (.sample 1 7 9))] :=
    ⟨_, run, rfl, rfl⟩
  refine ⟨WatchPlan.after?_sample, s, run, ?_, received⟩
  intro p member found answered
  have known := List.mem_map_of_mem (f := Poll.answer) member
  rw [polls, answered] at known
  simp only [List.mem_cons, List.not_mem_nil, or_false] at known
  rcases known with same | same <;> cases same <;> exact List.nodup_singleton 1

end Session

end BugFeed
