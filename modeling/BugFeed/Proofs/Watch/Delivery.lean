import BugFeed.Proofs.Watch.Polls

/-!
# What a poll hands over

A poll whose answer has a change after its cutoff hands over the event of every shown bug of the
answer from the cutoff on, at the latest when it ends. A poll whose answer has none is skipped: it
hands nothing over and leaves the watermark, so all that it withholds changed exactly at the
cutoff (`delivered_or_skipped`).

The cutoff of the first poll is the first instant that the consumer has not seen. A change at this
very instant is withheld when nothing newer comes with it
(`change_at_first_cutoff_withheld`), and it is handed over by the first poll that finds something
newer (`change_at_first_cutoff_delivered`).
-/

namespace BugFeed

set_option autoImplicit false

/-- An answer that is not later than the cutoff holds no change after it. -/
theorem le_cutoff_of_stale {found : SearchResponse} {cutoff next : ResourceVersion}
    (latest : found.latestChange? = some next) (stale : next.isAfter cutoff = false) :
    ∀ b ∈ found.bugs, b.lastChange ≤ cutoff.time := by
  intro b member
  exact le_trans (SearchResponse.le_latestChange latest member)
    (ResourceVersion.isAfter_eq_false_iff.mp stale)

/-- A poll that came to its end handed over every shown bug of its answer from the cutoff on, or
was skipped because its answer holds nothing after the cutoff. -/
theorem Concluded.handed_or_withheld {plan : WatchPlan} {p : Poll} {after : ResourceVersion}
    (concluded : Concluded plan p after) {found : SearchResponse}
    (answered : p.answer = some (.ok found)) {b : BugInfo} (member : b ∈ found.bugs)
    (shown : plan.includes b = true) (late : p.cutoff.time ≤ b.lastChange) :
    plan.eventOf (.ofInfo b) ∈ p.events ∨
      (p.outcome = some .skipped ∧ p.events = [] ∧ b.lastChange = p.cutoff.time ∧
        ∀ other ∈ found.bugs, other.lastChange ≤ p.cutoff.time) := by
  cases concluded with
  | empty nothing =>
      cases answered
      rw [SearchResponse.latestChange?_eq_none_iff.mp nothing] at member
      cases member
  | skipped latest stale =>
      cases answered
      have none_newer := le_cutoff_of_stale latest stale
      exact .inr ⟨rfl, rfl, le_antisymm (none_newer b member) late, none_newer⟩
  | ok latest fresh =>
      cases answered
      exact .inl (List.mem_map_of_mem ((plan.mem_batch).mpr ⟨b, member, shown, rfl, late⟩))

namespace Session

/-- Whether a poll is under way. -/
def UnderWay (s : Session) : Prop :=
  s.phase = .searching ∨ ∃ rest last next, s.phase = .delivering rest last next

/-- A poll of a session came to its end, or failed, or is the last one and still under way, or
the session has been stopped. -/
theorem Told.poll_cases {s : Session} (told : s.Told) {p : Poll} (member : p ∈ s.polls) :
    (∃ after, Concluded s.plan p after) ∨
      (∃ fault, p.answer = some (.error fault) ∧ p.outcome = some .error) ∨
      (p.outcome = none ∧ s.polls.head? = some p ∧
        (s.UnderWay ∨ s.signal.isStopped = true)) := by
  have last_or_earlier : ∀ {q : Poll} {earlier : List Poll}, s.polls = q :: earlier →
      Polled s.plan earlier q.cutoff → p = q ∨ ∃ after, Concluded s.plan p after := by
    intro q earlier polls polled
    rw [polls] at member
    exact (List.mem_cons.mp member).imp_right polled.concluded
  rw [Told] at told
  cases phase : s.phase with
  | pausing wake =>
      rw [phase] at told
      exact .inl (Polled.concluded told member)
  | searching =>
      rw [phase] at told
      obtain ⟨earlier, polls, polled⟩ := told
      rcases last_or_earlier polls polled with rfl | concluded
      · exact .inr (.inr ⟨rfl, by rw [polls]; rfl, .inl (.inl phase)⟩)
      · exact .inl concluded
  | delivering rest last next =>
      rw [phase] at told
      obtain ⟨earlier, found, done, polls, polled, _⟩ := told
      rcases last_or_earlier polls polled with rfl | concluded
      · exact .inr (.inr ⟨rfl, by rw [polls]; rfl, .inl (.inr ⟨rest, last, next, phase⟩)⟩)
      · exact .inl concluded
  | closing status | ended =>
      rw [phase] at told
      obtain ⟨stopped, broken⟩ := told
      generalize hpolls : s.polls = polls at broken member
      cases broken with
      | between polled => exact .inl (polled.concluded member)
      | unanswered polled =>
          rcases last_or_earlier hpolls polled with rfl | concluded
          · exact .inr (.inr ⟨rfl, rfl, .inr stopped⟩)
          · exact .inl concluded
      | failed polled =>
          rcases last_or_earlier hpolls polled with rfl | concluded
          · exact .inr (.inl ⟨_, rfl, rfl⟩)
          · exact .inl concluded
      | cut polled =>
          rcases last_or_earlier hpolls polled with rfl | concluded
          · exact .inr (.inr ⟨rfl, rfl, .inr stopped⟩)
          · exact .inl concluded

/-- **A fetched change is not withheld but by a skipped poll.** In every run of a session, a poll
without an outcome is the last one, and is still under way or the session has been stopped. Every
answered poll with an outcome handed over the event of each shown bug of its answer that changed
at its cutoff or later, unless the answer holds nothing after the cutoff: then the poll was
skipped, it handed nothing over, and what it withholds changed exactly at the cutoff. -/
theorem delivered_or_skipped {now : Nat} {present : Instant} {plan : WatchPlan} {s : Session}
    {cues : List Cue} (run : (start now present plan).run? cues = some s) {p : Poll}
    (member : p ∈ s.polls) :
    (p.outcome = none →
        s.polls.head? = some p ∧ (s.UnderWay ∨ s.signal.isStopped = true)) ∧
      (p.outcome.isSome = true → ∀ found, p.answer = some (.ok found) →
        ∀ b ∈ found.bugs, plan.includes b = true → p.cutoff.time ≤ b.lastChange →
          plan.eventOf (.ofInfo b) ∈ p.events ∨
            (p.outcome = some .skipped ∧ p.events = [] ∧ b.lastChange = p.cutoff.time ∧
              ∀ other ∈ found.bugs, other.lastChange ≤ p.cutoff.time)) := by
  have same : s.plan = plan := plan_of_run run
  have cases := (told_of_run run).poll_cases member
  rw [same] at cases
  constructor
  · intro unfinished
    rcases cases with ⟨after, concluded⟩ | ⟨fault, _, ended⟩ | ⟨_, last, why⟩
    · cases concluded <;> cases unfinished
    · rw [ended] at unfinished
      cases unfinished
    · exact ⟨last, why⟩
  · intro finished found answered b inside shown late
    rcases cases with ⟨after, concluded⟩ | ⟨fault, failed, _⟩ | ⟨unfinished, _⟩
    · exact concluded.handed_or_withheld answered inside shown late
    · rw [failed] at answered
      cases answered
    · rw [unfinished] at finished
      cases finished

/-! ## What waits for the consumer -/

/-- Every waiting event about a bug is about a shown one. -/
def Presents (s : Session) : Prop :=
  ∀ event ∈ s.queue, ∀ b, event.bug? = some b → ∃ f, b = .ofInfo f ∧ s.plan.includes f = true

/-- What is still to be handed over is shown. -/
theorem Told.rest_shown {s : Session} (told : s.Told) {rest : List Bug} {last : Option Instant}
    {next : ResourceVersion} (phase : s.phase = .delivering rest last next) :
    ∀ b ∈ rest, ∃ f, b = .ofInfo f ∧ s.plan.includes f = true := by
  intro b member
  rw [Told, phase] at told
  obtain ⟨earlier, found, done, _, _, handing, _⟩ := told
  have inBatch : b ∈ s.plan.batch s.watermark found := by
    rw [handing.split]
    exact List.mem_append_right _ member
  obtain ⟨f, _, shown, rfl, _⟩ := (s.plan.mem_batch).mp inBatch
  exact ⟨f, rfl, shown⟩

theorem Presents.push {s : Session} (presents : s.Presents) {event : WatchEvent}
    (shown : ∀ b, event.bug? = some b → ∃ f, b = .ofInfo f ∧ s.plan.includes f = true)
    (now : Nat) : (s.push now event).Presents := by
  intro e member
  rcases List.mem_append.mp member with member | member
  · exact presents e member
  · rw [List.mem_singleton.mp member]
    exact shown

theorem Presents.fire {s : Session} (presents : s.Presents) (now : Nat) (reason : StopReason) :
    (s.fire now reason).Presents := by
  rcases s.fire_cases now reason with ⟨_, same⟩ | ⟨_, fired⟩
  · rw [same]
    exact presents
  · rw [fired]
    exact presents

theorem Presents.leave {s : Session} (presents : s.Presents) (now : Nat) :
    (s.leave now).Presents := by
  rcases s.leave_cases now with closing | ended
  · rw [closing]
    exact presents
  · rw [ended]
    exact presents

theorem Presents.move {s t : Session} {now : Nat} {args : Option SearchArgs}
    (presents : s.Presents) (told : s.Told) (move : Move s now t args) : t.Presents := by
  cases move with
  | expire => exact presents.fire now .expired
  | leave => exact presents.leave now
  | ask => exact presents
  | conclude => exact presents
  | @deliver b rest last next phase =>
      refine Presents.push (s := { s with phase := .delivering rest _ next }) presents ?_ now
      intro c about
      rw [WatchPlan.bug?_eventOf] at about
      cases about
      exact told.rest_shown phase b List.mem_cons_self
  | abandon => exact presents.fire now .finished
  | report =>
      refine presents.push ?_ now
      intro c about
      cases about
  | vanish => exact presents

theorem Presents.hears {s t : Session} {now : Nat}
    {response : Except TransportFault SearchResponse} (presents : s.Presents)
    (hears : Hears s now response t) : t.Presents := by
  cases hears with
  | unasked => exact presents
  | late => exact presents.leave now
  | picked _ _ picks =>
      cases picks with
      | @failed fault =>
          have heard : ((s.note now (.answered (.error fault))).conclude now .error).Presents :=
            presents
          exact heard.fire now .failed
      | empty | skipped | accepted => exact presents

theorem Presents.take {s t : Session} {now : Nat} {event : WatchEvent} (presents : s.Presents)
    (taken : s.take? now = some (event, t)) : t.Presents := by
  obtain ⟨queue, same⟩ := queue_of_take taken
  rw [Presents, queue] at presents
  rw [same]
  exact fun e member => presents e (List.mem_cons_of_mem _ member)

/-! ## The first cutoff -/

/-- A change at the very cutoff of the first poll is handed over along with a newer one. -/
theorem change_at_first_cutoff_delivered :
    ∃ s p, (start 0 .epoch (.sample 6)).run?
        [.proceed 7000, .answer 7000 (.ok ⟨[.sample 2 1 6, .sample 1 0 8]⟩),
          .proceed 7000, .take 7000, .proceed 7000, .proceed 7000] = some s ∧
      s.polls = [p] ∧ p.cutoff.time = .onFirstDay 6 ∧
      (WatchPlan.sample 6).eventOf (.ofInfo (.sample 2 1 6)) ∈ p.events := by
  have batch : (WatchPlan.sample 6).batch ⟨.onFirstDay 6⟩ ⟨[.sample 2 1 6, .sample 1 0 8]⟩ =
      [.ofInfo (.sample 2 1 6), .ofInfo (.sample 1 0 8)] :=
    WatchPlan.batch_of_pairwise (by decide)
  have latest : (SearchResponse.mk [.sample 2 1 6, .sample 1 0 8]).latestChange? =
      some ⟨.onFirstDay 8⟩ := rfl
  have heard := follow?_accepted (firstSearch (.sample 6) 7000) 7000 rfl rfl latest (by decide)
    batch
  have run : (start 0 .epoch (.sample 6)).run? _ = some _ :=
    (run?_cons firstSearch_reached _).trans ((run?_cons heard
      [.proceed 7000, .take 7000, .proceed 7000, .proceed 7000]).trans rfl)
  refine ⟨_, _, run, rfl, rfl, ?_⟩
  have handed := (delivered_or_skipped run List.mem_cons_self).2 rfl _ rfl (.sample 2 1 6)
    List.mem_cons_self rfl (by decide)
  rcases handed with handed | ⟨skipped, _⟩
  · exact handed
  · cases skipped

/-- A change at the very cutoff of the first poll is withheld when nothing newer comes with it. -/
theorem change_at_first_cutoff_withheld :
    ∃ s p, (start 0 .epoch (.sample 6)).run?
        [.proceed 7000, .answer 7000 (.ok ⟨[.sample 1 0 6]⟩)] = some s ∧
      s.signal.isStopped = false ∧ s.polls = [p] ∧ p.cutoff.time = .onFirstDay 6 ∧
      p.answer = some (.ok ⟨[.sample 1 0 6]⟩) ∧ p.outcome.isSome = true ∧ p.events = [] :=
  ⟨_, _, rfl, rfl, rfl, rfl, rfl, rfl, rfl⟩

end Session

end BugFeed
