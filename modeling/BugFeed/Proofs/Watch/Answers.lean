import BugFeed.Proofs.Watch.Channel

/-!
# The answers of polls

What the polls of a session have each, such as an answer or an outcome, is gathered in the order in
which they began (`Poll.gather`). Only the note of an answer and the note of the end of a poll add
to it (`Poll.Reads.gather_read`), so the moves of a session leave the answers alone (`Move.gather`).
The answers of the polls are those that the session looked at in its run (`responses_of_run`).
-/

namespace BugFeed

set_option autoImplicit false

/-- The answer that the session was given. -/
def Note.answered? : Note → Option (Except TransportFault SearchResponse)
  | .answered response => some response
  | _ => none

/-- The outcome of the poll that ended. -/
def Note.polled? : Note → Option PollOutcome
  | .polled outcome => some outcome
  | _ => none

/-! ## What polls have -/

namespace Poll

variable {α : Type} {f : Poll → Option α}

/-- What some polls, newest first, have each, in the order in which they began. -/
def gather (f : Poll → Option α) (polls : List Poll) : List α := polls.reverse.filterMap f

theorem gather_cons (f : Poll → Option α) (p : Poll) (polls : List Poll) :
    gather f (p :: polls) = gather f polls ++ (f p).toList := by
  simp only [gather, List.reverse_cons, List.filterMap_append]
  cases found : f p <;> simp [found]

theorem gather_modifyHead {g : Poll → Poll} (keeps : ∀ p, f (g p) = f p) (polls : List Poll) :
    gather f (polls.modifyHead g) = gather f polls := by
  cases polls with
  | nil => rfl
  | cons p polls => rw [List.modifyHead_cons, gather_cons, gather_cons, keeps]

/-- Something about a poll that a new one does not have, whatever it hands over. -/
structure Reads (f : Poll → Option α) : Prop where
  fresh : ∀ cutoff, f { cutoff := cutoff } = none
  blind : ∀ p events, f { p with events := events } = f p

theorem reads_answer : Reads answer := ⟨fun _ => rfl, fun _ _ => rfl⟩

end Poll

/-- Only the notes of an answer and of the end of a poll add to what polls have. -/
theorem Poll.Reads.gather_read {α : Type} {f : Poll → Option α} (reads : Poll.Reads f) {n : Note}
    (unanswered : n.answered? = none) (unpolled : n.polled? = none) (polls : List Poll) :
    Poll.gather f (Poll.read polls n) = Poll.gather f polls := by
  cases n with
  | asked cutoff =>
      rw [Poll.read, Poll.gather_cons, reads.fresh]
      exact List.append_nil _
  | answered response => cases unanswered
  | polled outcome => cases unpolled
  | delivered event =>
      cases event with
      | error status => rfl
      | added b => exact Poll.gather_modifyHead (fun p => reads.blind p _) polls
      | modified b => exact Poll.gather_modifyHead (fun p => reads.blind p _) polls
  | fired reason => rfl
  | taken event => rfl
  | ended => rfl

namespace Session

variable {s t : Session} {now : Nat}

section Gather

variable {α : Type} {f : Poll → Option α} (reads : Poll.Reads f)

include reads

theorem gather_note {n : Note} (unanswered : n.answered? = none) (unpolled : n.polled? = none)
    (s : Session) (now : Nat) :
    Poll.gather f (s.note now n).polls = Poll.gather f s.polls :=
  reads.gather_read unanswered unpolled s.polls

theorem gather_fire (s : Session) (now : Nat) (reason : StopReason) :
    Poll.gather f (s.fire now reason).polls = Poll.gather f s.polls := by
  rcases s.fire_cases now reason with ⟨_, same⟩ | ⟨_, fired⟩
  · rw [same]
  · rw [fired]
    exact gather_note reads rfl rfl _ now

theorem gather_leave (s : Session) (now : Nat) :
    Poll.gather f (s.leave now).polls = Poll.gather f s.polls := by
  rcases s.leave_cases now with closing | ended
  · rw [closing]
    rfl
  · rw [ended]
    exact gather_note reads rfl rfl _ now

/-- What a session does by itself adds nothing to what its polls have, unless a poll ends with
it. -/
theorem Move.gather {args : Option SearchArgs} (move : Move s now t args) :
    Poll.gather f t.polls = Poll.gather f s.polls ∨
      ∃ last next, s.phase = .delivering [] last next ∧
        t = ({ s with watermark := next }.conclude now .ok).pause now := by
  cases move with
  | expire => exact .inl (gather_fire reads s now .expired)
  | leave => exact .inl (gather_leave reads s now)
  | ask => exact .inl (gather_note reads rfl rfl _ now)
  | conclude phase => exact .inr ⟨_, _, phase, rfl⟩
  | deliver => exact .inl (gather_note reads rfl rfl _ now)
  | abandon =>
      exact .inl ((gather_note reads rfl rfl _ now).trans (gather_fire reads s now .finished))
  | report =>
      exact .inl ((gather_note reads rfl rfl _ now).trans (gather_note reads rfl rfl _ now))
  | vanish => exact .inl (gather_note reads rfl rfl _ now)

theorem gather_take {event : WatchEvent} (taken : s.take? now = some (event, t)) :
    Poll.gather f t.polls = Poll.gather f s.polls := by
  rw [(queue_of_take taken).2]
  exact gather_note reads rfl rfl _ now

end Gather

/-! ## Answers that were looked at -/

/-- The answers that the polls of the session were given, first one first. -/
def responses (s : Session) : List (Except TransportFault SearchResponse) :=
  Poll.gather Poll.answer s.polls

/-- The answer that a session looks at when it comes. -/
def given? (s : Session) : Cue → Option (Except TransportFault SearchResponse)
  | .answer _ response => if s.isSearching && !s.signal.isStopped then some response else none
  | _ => none

theorem responses_conclude (s : Session) (now : Nat) (outcome : PollOutcome) :
    (s.conclude now outcome).responses = s.responses :=
  Poll.gather_modifyHead (fun _ => by rfl) s.polls

/-- The answer to a search joins those before it. -/
theorem Told.responses_answered (told : s.Told) (phase : s.phase = .searching)
    (response : Except TransportFault SearchResponse) :
    (s.note now (.answered response)).responses = s.responses ++ [response] := by
  rw [Told, phase] at told
  obtain ⟨earlier, polls, _⟩ := told
  change Poll.gather Poll.answer (Poll.read s.polls (.answered response)) =
    Poll.gather Poll.answer s.polls ++ _
  rw [polls, Poll.read, List.modifyHead_cons, Poll.gather_cons, Poll.gather_cons]
  simp

theorem Picks.responses {response : Except TransportFault SearchResponse} (told : s.Told)
    (phase : s.phase = .searching) (picks : Picks s now response t) :
    t.responses = s.responses ++ [response] := by
  cases picks with
  | failed =>
      refine (gather_fire Poll.reads_answer _ now .failed).trans ?_
      exact (responses_conclude _ now .error).trans (told.responses_answered phase _)
  | empty | skipped => exact (responses_conclude _ now _).trans (told.responses_answered phase _)
  | accepted => exact told.responses_answered phase _

theorem Hears.responses {response : Except TransportFault SearchResponse} (told : s.Told)
    (hears : Hears s now response t) :
    t.responses = s.responses ++ (s.given? (.answer now response)).toList := by
  cases hears with
  | unasked phase =>
      have idle : s.isSearching = false := decide_eq_false phase
      simp [given?, idle]
  | late _ stopped =>
      rw [responses, gather_leave Poll.reads_answer]
      simp [given?, stopped, responses]
  | picked phase running picks =>
      have searching : s.isSearching = true := decide_eq_true phase
      simp only [given?, searching, running, Bool.not_false, Bool.and_true, if_true]
      exact picks.responses told phase

theorem Move.responses {args : Option SearchArgs} (move : Move s now t args) :
    t.responses = s.responses := by
  rcases move.gather Poll.reads_answer with same | ⟨last, next, phase, rfl⟩
  · exact same
  · exact responses_conclude { s with watermark := next } now .ok

theorem responses_follow {cue : Cue} (h : s.follow? cue = some t) (told : s.Told) :
    t.responses = s.responses ++ (s.given? cue).toList := by
  have unanswered : t.responses = s.responses → s.given? cue = none →
      t.responses = s.responses ++ (s.given? cue).toList := by
    intro same silent
    simp [same, silent]
  cases cue with
  | expire now => exact unanswered (move_of_expire h).responses rfl
  | proceed now =>
      obtain ⟨⟨u, args⟩, move, rfl⟩ := Option.map_eq_some_iff.mp h
      exact unanswered (move_of_proceed move).responses rfl
  | answer now response =>
      cases h
      exact (hears_answer s now response).responses told
  | take now =>
      obtain ⟨⟨event, u⟩, taken, rfl⟩ := Option.map_eq_some_iff.mp h
      exact unanswered (gather_take Poll.reads_answer taken) rfl
  | stop now =>
      cases h
      exact unanswered (gather_fire Poll.reads_answer s now .requested) rfl
  | close =>
      cases h
      exact unanswered rfl rfl
  | drop now =>
      cases h
      exact unanswered (gather_fire Poll.reads_answer _ now .requested) rfl

/-- **The answers of the polls are those that a session looked at in its run.** -/
theorem responses_of_run {present : Instant} {plan : WatchPlan} {cues : List Cue}
    (run : (start now present plan).run? cues = some s) :
    s.responses = (start now present plan).along given? cues :=
  along_of_run (P := Told) (fun h told => told.follow h) (fun h told => responses_follow h told) run
    (told_start now present plan)

end Session

end BugFeed
