import BugFeed.Proofs.Informer.Listing
import BugFeed.Proofs.Informer.Pauses
import BugFeed.Proofs.Informer.Tokens

/-!
# The pauses before an informer lists again

A watch that failed is followed by a pause and a new list, one that came to its end by another
watch. The counter of the informer is the number of watches that failed in a row, as its log tells,
up to the largest number that it can hold, and the log has the shape that follows from it
(`Spacing`). Few acts touch either: the end of a watch, the list after a pause and a shutdown. All
others only add notes that leave the shape alone (`Goes`). So every run keeps both
(`spacing_of_run`), and what comes after each watch can be read off the log (`relists_spaced`).

A pause takes no longer than any wait does, and the delay that a policy demands may be longer than
that (`relist_before_delay`).
-/

namespace BugFeed

set_option autoImplicit false

namespace Informer

variable {i j k : Informer} {now : Nat} {present : Instant} {args : Option SearchArgs}
variable {policy : BackoffPolicy} {onTime : Prop} {base notes : List (Nat × InformerNote)}

/-! ## What leaves the shape of a log alone -/

/-- An informer after things that neither end a watch nor begin a pause before a list. -/
structure Goes (i j : Informer) : Prop where
  log : ∃ more, j.log = more ++ i.log ∧ ∀ e ∈ more, e.2.isPlain = true
  policy : j.policy = i.policy
  relists : j.relists = i.relists

namespace Goes

theorem silent (log : j.log = i.log) (policy : j.policy = i.policy)
    (relists : j.relists = i.relists) : Goes i j :=
  ⟨⟨[], log, List.forall_mem_nil _⟩, policy, relists⟩

theorem note {n : InformerNote} (plain : n.isPlain = true) (log : j.log = (now, n) :: i.log)
    (policy : j.policy = i.policy) (relists : j.relists = i.relists) : Goes i j :=
  ⟨⟨[(now, n)], log, List.forall_mem_singleton.mpr plain⟩, policy, relists⟩

theorem after (second : Goes j k) (first : Goes i j) : Goes i k := by
  obtain ⟨some, log, plain⟩ := first.log
  obtain ⟨more, log', plain'⟩ := second.log
  refine ⟨⟨more ++ some, ?_, ?_⟩, second.policy.trans first.policy,
    second.relists.trans first.relists⟩
  · rw [log', log, List.append_assoc]
  · intro e member
    exact (List.mem_append.mp member).elim (plain' e) (plain e)

end Goes

theorem goes_finish (i : Informer) (now : Nat) (outcome : Except Fault Unit) :
    Goes i (i.finish now outcome) := .note rfl rfl rfl rfl

theorem goes_openWatch (i : Informer) (now : Nat) (present : Instant) :
    Goes i (i.openWatch now present) ∧ ∀ wake, (i.openWatch now present).phase ≠ .resting wake := by
  rcases i.openWatch_cases now present with ⟨plan, _, opened⟩ | ⟨fault, finished⟩ | broken
  · rw [opened]
    exact ⟨.note rfl rfl rfl rfl, nofun⟩
  · rw [finished]
    exact ⟨i.goes_finish now _, nofun⟩
  · rw [broken]
    exact ⟨.silent rfl rfl rfl, nofun⟩

theorem goes_takeOver (i : Informer) (now : Nat) (present : Instant) (list : BugList) :
    Goes i (i.takeOver now present list) ∧
      ∀ wake, (i.takeOver now present list).phase ≠ .resting wake := by
  rcases i.takeOver_cases now present list with ⟨version, _, taken⟩ | ⟨fault, finished⟩
  · rw [taken]
    obtain ⟨goes, awake⟩ := goes_openWatch (({ i with
      store := .replace list.items, synced := true, version := version } : Informer).note now
        (.listed list)) now present
    exact ⟨goes.after (.note rfl rfl rfl rfl), awake⟩
  · rw [finished]
    exact ⟨i.goes_finish now _, nofun⟩

theorem goes_attemptFailed (i : Informer) (now : Nat) (retry : Retry) (fault : Fault) :
    Goes i (i.attemptFailed now retry fault) ∧
      ∀ wake, (i.attemptFailed now retry fault).phase ≠ .resting wake := by
  rcases i.attemptFailed_cases now retry fault with ⟨next, wake, retrying⟩ | finished
  · rw [retrying]
    exact ⟨.note rfl rfl rfl rfl, nofun⟩
  · rw [finished]
    exact ⟨(goes_finish _ now _).after (.note rfl rfl rfl rfl), nofun⟩

theorem goes_moveWatch {move : Session → Option (Session × Option SearchArgs)}
    (h : i.moveWatch? move = some (j, args)) :
    (∀ wake, i.phase ≠ .resting wake) ∧ Goes i j ∧ ∀ wake, j.phase ≠ .resting wake := by
  unfold moveWatch? at h
  split at h
  · rename_i s phase
    obtain ⟨⟨t, asked⟩, _, same⟩ := Option.map_eq_some_iff.mp h
    cases same
    exact ⟨by simp [phase], .silent rfl rfl rfl, nofun⟩
  · rename_i s phase
    obtain ⟨⟨t, asked⟩, _, same⟩ := Option.map_eq_some_iff.mp h
    cases same
    exact ⟨by simp [phase], .silent rfl rfl rfl, nofun⟩
  · cases h

/-! ## The counter of failed watches -/

/-- An informer with what its log tells since a run began: the counter is the number of watches that
failed in a row, the log has its shape, and after a pause that is not over yet the informer rests.
If the run is on time, no pause has been overslept. -/
structure Spacing (policy : BackoffPolicy) (onTime : Prop) (now : Nat)
    (base notes : List (Nat × InformerNote)) (i : Informer) : Prop where
  log_eq : i.log = notes ++ base
  policy_eq : i.policy = policy
  relists_eq : i.relists = min (failuresInARow notes) mostRelists
  spaced : Spaced policy onTime notes
  last : Settled notes ∨ ∃ t pause before, notes = (t, .rested pause) :: before ∧
    i.phase = .resting (waitEnd t pause)
  due : onTime → ∀ wake, i.phase = .resting wake → i.stopping = false → now ≤ wake

theorem spacing_start (i : Informer) (now : Nat) (stopping : Bool) :
    Spacing i.policy onTime now i.log [] (i.start now stopping) where
  log_eq := rfl
  policy_eq := rfl
  relists_eq := rfl
  spaced := .nil
  last := .inl trivial
  due _ wake phase _ := by
    cases phase
    exact Nat.le_refl now

namespace Spacing

variable (spacing : Spacing policy onTime now base notes i)

include spacing

theorem settled (awake : ∀ wake, i.phase ≠ .resting wake) : Settled notes := by
  rcases spacing.last with settled | ⟨t, pause, before, _, phase⟩
  · exact settled
  · exact absurd phase (awake _)

theorem goes (settled : Settled notes) (goes : Goes i j)
    (awake : ∀ wake, j.phase ≠ .resting wake) :
    ∃ notes', Spacing policy onTime now base notes' j := by
  obtain ⟨more, log, plain⟩ := goes.log
  refine ⟨more ++ notes, ?_, goes.policy.trans spacing.policy_eq, ?_,
    spacing.spaced.append settled plain, .inl (settled.append plain),
    fun _ wake phase => absurd phase (awake wake)⟩
  · rw [log, spacing.log_eq, List.append_assoc]
  · rw [goes.relists, spacing.relists_eq, failuresInARow_append plain]

/-- Time passes, and an informer that is on time does not oversleep. -/
theorem advance {later : Nat}
    (idle : onTime → ∀ time present, now ≤ time → time < later → i.move? time present = none) :
    Spacing policy onTime later base notes i := by
  refine { spacing with due := fun inTime wake phase running => ?_ }
  by_contra overslept
  have nothing := idle inTime wake .epoch (spacing.due inTime wake phase running)
    (Nat.lt_of_not_le overslept)
  simp [move?, running, proceed?, phase] at nothing

/-! ### Moves -/

/-- A pause is over, and the informer begins to list. -/
theorem list {wake : Nat} (phase : i.phase = .resting wake) (running : i.stopping = false)
    (passed : wake ≤ now) (present : Instant) :
    ∃ notes', Spacing policy onTime now base notes' (i.beginList now present).1 := by
  have succeeds : Succeeds policy onTime (now, .began) notes := by
    rcases spacing.last with settled | ⟨t, pause, before, rfl, rests⟩
    · exact settled.succeeds nofun
    · obtain rfl : wake = waitEnd t pause := by simpa [phase] using rests
      refine ⟨nofun, fun t' pause' before' same => ?_, nofun⟩
      cases same
      exact .inl ⟨now, rfl, passed, fun inTime =>
        Nat.le_antisymm (spacing.due inTime _ phase running) passed⟩
  have began : Spacing policy onTime now base ((now, .began) :: notes)
      ((i.count (.cycled .list)).note now .began) := by
    refine ⟨congrArg _ spacing.log_eq, spacing.policy_eq, ?_, spacing.spaced.cons succeeds,
      .inl (settled_of_plain rfl), spacing.due⟩
    exact spacing.relists_eq.trans (by rw [failuresInARow_cons rfl]; rfl)
  rcases i.beginList_cases now present with asked | finished
  · rw [asked]
    exact began.goes (settled_of_plain rfl) (.note rfl rfl rfl rfl) nofun
  · rw [finished]
    exact began.goes (settled_of_plain rfl) (goes_finish _ now _) nofun

/-- The shutdown ends the run, in a pause also. -/
theorem giveUp : ∃ notes', Spacing policy onTime now base notes' (i.finish now (.ok ())) := by
  have succeeds : Succeeds policy onTime (now, .finished (.ok ())) notes := by
    rcases spacing.last with settled | ⟨t, pause, before, rfl, _⟩
    · exact settled.succeeds nofun
    · refine ⟨nofun, fun t' pause' before' same => ?_, nofun⟩
      exact .inr ⟨now, rfl⟩
  refine ⟨(now, .finished (.ok ())) :: notes, congrArg _ spacing.log_eq, spacing.policy_eq, ?_,
    spacing.spaced.cons succeeds, .inl (settled_of_plain rfl), nofun⟩
  exact spacing.relists_eq.trans (by rw [failuresInARow_cons rfl]; rfl)

/-- A watch came to its end, and the informer goes on with another one. -/
theorem rewatch (settled : Settled notes) (awake : ∀ wake, i.phase ≠ .resting wake)
    {status : Option Status} (clean : (InformerNote.closed status).isCleanEnd = true)
    (present : Instant) :
    ∃ notes', Spacing policy onTime now base notes'
      ((i.note now (.closed status)).rewatch now present) := by
  have succeeds : Succeeds policy onTime (now, .closed status) notes := settled.succeeds nofun
  have closed : Spacing policy onTime now base ((now, .closed status) :: notes)
      ({ (i.note now (.closed status)).leave with relists := 0 }.count (.cycled .rewatch)) := by
    refine ⟨congrArg _ spacing.log_eq, spacing.policy_eq, ?_, spacing.spaced.cons succeeds,
      .inl (settled_of_cleanEnd clean), fun _ wake phase => absurd phase (awake wake)⟩
    rw [failuresInARow_of_cleanEnd clean]
    rfl
  obtain ⟨goes, awake'⟩ := goes_openWatch
    ({ (i.note now (.closed status)).leave with relists := 0 }.count (.cycled .rewatch)) now present
  exact closed.goes (settled_of_cleanEnd clean) goes awake'

/-- A watch failed, and the informer pauses. -/
theorem rest (settled : Settled notes) {status : Status} (failed : status.isResumable = false) :
    ∃ notes', Spacing policy onTime now base notes'
      ((i.note now (.closed (some status))).rest now) := by
  have succeeds : Succeeds policy onTime (now, .closed (some status)) notes :=
    settled.succeeds nofun
  have pause : i.policy.delayMs i.relists = policy.pauseAfter notes := by
    rw [spacing.policy_eq, spacing.relists_eq, BackoffPolicy.pauseAfter]
  have rests : Succeeds policy onTime (now, .rested (policy.pauseAfter notes))
      ((now, .closed (some status)) :: notes) := by
    refine ⟨fun t other before same _ => ?_, nofun, fun t other same => ?_⟩
    · cases same
      rfl
    · cases same
      exact ⟨status, notes, rfl, failed, rfl⟩
  refine ⟨(now, .rested (policy.pauseAfter notes)) :: (now, .closed (some status)) :: notes, ?_,
    spacing.policy_eq, ?_, (spacing.spaced.cons succeeds).cons rests,
    .inr ⟨now, _, _, rfl, ?_⟩, fun _ wake phase _ => ?_⟩
  · rw [← pause]
    exact congrArg _ (congrArg _ spacing.log_eq)
  · have counted : ((i.note now (.closed (some status))).rest now).relists =
        min (i.relists + 1) mostRelists := rfl
    rw [counted, spacing.relists_eq, failuresInARow_cons rfl,
      failuresInARow_of_failure status failed]
    simp only [InformerNote.isFailure, Bool.false_eq_true, if_false]
    omega
  · rw [← pause]
    rfl
  · cases phase
    exact le_waitEnd now _

/-- An informer that acts on an event of its watch. -/
theorem consume (awake : ∀ wake, i.phase ≠ .resting wake) (present : Instant) (event : WatchEvent) :
    ∃ notes', Spacing policy onTime now base notes' (i.consume now present event) := by
  have settled := spacing.settled awake
  cases event with
  | added b => exact spacing.goes settled (.note rfl rfl rfl rfl) awake
  | modified b => exact spacing.goes settled (.note rfl rfl rfl rfl) awake
  | error status =>
      simp only [Informer.consume]
      split
      · rename_i resumable
        have clean : (InformerNote.closed (some status)).isCleanEnd = true := resumable
        exact spacing.rewatch settled awake clean present
      · rename_i failed
        exact spacing.rest settled (eq_false_of_ne_true failed)

/-- An informer that was not resting does something that leaves the shape of its log alone. -/
theorem goes_of_awake (awake : ∀ wake, i.phase ≠ .resting wake)
    (goes : Goes i j ∧ ∀ wake, j.phase ≠ .resting wake) :
    ∃ notes', Spacing policy onTime now base notes' j :=
  spacing.goes (spacing.settled awake) goes.1 goes.2

theorem turn (turn : Turn i now present j args) :
    ∃ notes', Spacing policy onTime now base notes' j := by
  cases turn with
  | giveUp => exact spacing.giveUp
  | stop _ phase =>
      exact spacing.goes_of_awake (by simp [phase]) ⟨.silent rfl rfl rfl, nofun⟩
  | discard _ phase =>
      exact spacing.goes_of_awake (by simp [phase]) ⟨.note rfl rfl rfl rfl, nofun⟩
  | drained _ phase =>
      exact spacing.goes_of_awake (by simp [phase]) ⟨.note rfl rfl rfl rfl, nofun⟩
  | list running phase passed => exact spacing.list phase running passed present
  | timeOut _ phase =>
      exact spacing.goes_of_awake (by simp [phase]) (i.goes_attemptFailed now _ _)
  | retry _ phase =>
      exact spacing.goes_of_awake (by simp [phase]) ⟨.note rfl rfl rfl rfl, nofun⟩
  | @take s t event _ phase _ =>
      obtain ⟨notes', watches⟩ := spacing.goes_of_awake (by simp [phase])
        (j := { i with phase := .watching t }) ⟨.silent rfl rfl rfl, nofun⟩
      exact watches.consume nofun present event
  | closed _ phase =>
      have awake : ∀ wake, i.phase ≠ .resting wake := by simp [phase]
      exact spacing.rewatch (spacing.settled awake) awake rfl present
  | watch _ phase =>
      exact spacing.goes_of_awake (by simp [phase]) ⟨.silent rfl rfl rfl, nofun⟩
  | drain phase =>
      exact spacing.goes_of_awake (by simp [phase]) ⟨.silent rfl rfl rfl, nofun⟩

theorem heard {response : Except TransportFault SearchResponse}
    (heard : Heard i now present response j) :
    ∃ notes', Spacing policy onTime now base notes' j := by
  cases heard with
  | ignored => exact ⟨notes, spacing⟩
  | list phase => exact spacing.goes_of_awake (by simp [phase]) (i.goes_takeOver now present _)
  | failed phase => exact spacing.goes_of_awake (by simp [phase]) (i.goes_attemptFailed now _ _)
  | watch phase => exact spacing.goes_of_awake (by simp [phase]) ⟨.silent rfl rfl rfl, nofun⟩
  | drain phase => exact spacing.goes_of_awake (by simp [phase]) ⟨.silent rfl rfl rfl, nofun⟩

/-! ### Runs -/

/-- **Every cue keeps the counter and the shape of the log.** -/
theorem follow {cue : Cue} (at_ : cue.at now = now) (h : i.follow? cue = some (j, args)) :
    ∃ notes', Spacing policy onTime now base notes' j := by
  cases cue with
  | move time present =>
      obtain rfl : time = now := at_
      exact spacing.turn (turn_of_move h)
  | expire time =>
      obtain ⟨awake, goes⟩ := goes_moveWatch h
      exact spacing.goes_of_awake awake goes
  | proceed time =>
      obtain ⟨awake, goes⟩ := goes_moveWatch h
      exact spacing.goes_of_awake awake goes
  | answer time present response =>
      obtain rfl : time = now := at_
      cases h
      exact spacing.heard (heard_answer i time present response)
  | shutDown =>
      cases h
      exact ⟨notes, spacing.log_eq, spacing.policy_eq, spacing.relists_eq, spacing.spaced,
        spacing.last, nofun⟩

end Spacing

theorem spacing_of_run {cues : List Cue} (spacing : Spacing policy onTime now base notes i)
    (punctual : onTime → i.Punctual now cues) (run : i.run? cues = some k) :
    ∃ clock notes', Spacing policy onTime clock base notes' k := by
  induction cues generalizing i now notes with
  | nil =>
      cases run
      exact ⟨now, notes, spacing⟩
  | cons cue cues ih =>
      obtain ⟨⟨j, args⟩, first, rest⟩ := Option.bind_eq_some_iff.mp run
      have later := spacing.advance fun inTime => (punctual inTime).2.1
      obtain ⟨notes', step⟩ := later.follow (by cases cue <;> rfl) first
      exact ih step (fun inTime => (punctual inTime).2.2 j args first) rest

/-! ## The next watch -/

/-- The queue of the watch is not too long, if there is a watch. -/
def Fits (i : Informer) : Prop :=
  i.session? ≠ none → max 1 i.feed.config.eventBufferSize.toNat ≤ Session.longestQueue

theorem fits_openWatch (i : Informer) (now : Nat) (present : Instant) :
    (i.openWatch now present).Fits := by
  intro own
  have feed : (i.openWatch now present).feed = i.feed := by
    rcases i.openWatch_cases now present with ⟨plan, _, opened⟩ | ⟨fault, finished⟩ | broken
    · rw [opened]
      rfl
    · rw [finished]
      rfl
    · rw [broken]
  rw [feed]
  by_contra long
  refine own ?_
  by_cases written : i.version.Written
  · rw [openWatch_of_long written long]
    rfl
  · rw [openWatch_of_signed written]
    rfl

theorem fits_of_without (without : i.session? = none) : i.Fits := fun own => absurd without own

theorem fits_takeOver (i : Informer) (now : Nat) (present : Instant) (list : BugList) :
    (i.takeOver now present list).Fits := by
  rcases i.takeOver_cases now present list with ⟨version, _, taken⟩ | ⟨fault, finished⟩
  · rw [taken]
    exact fits_openWatch _ now present
  · rw [finished]
    exact fits_of_without rfl

theorem fits_attemptFailed (i : Informer) (now : Nat) (retry : Retry) (fault : Fault) :
    (i.attemptFailed now retry fault).Fits := by
  rcases i.attemptFailed_cases now retry fault with ⟨next, wake, retrying⟩ | finished
  · rw [retrying]
    exact fits_of_without rfl
  · rw [finished]
    exact fits_of_without rfl

namespace Fits

variable (fits : i.Fits)

include fits

theorem of_own {s : Session} (own : i.session? = some s) (feed : j.feed = i.feed) : j.Fits := by
  intro _
  rw [feed]
  exact fits (by simp [own])

theorem consume (now : Nat) (present : Instant) (event : WatchEvent) :
    (i.consume now present event).Fits := by
  rcases i.consume_cases now present event with
    ⟨b, _, absorbed⟩ | ⟨status, _, rewatched | rested⟩
  · rw [absorbed]
    exact fits
  · rw [rewatched]
    exact fits_openWatch _ now present
  · rw [rested]
    exact fits_of_without rfl

theorem act (act : Act i now present j args) : j.Fits := by
  cases act with
  | list =>
      rcases i.beginList_cases now present with asked | finished
      · rw [asked]
        exact fits_of_without rfl
      · rw [finished]
        exact fits_of_without rfl
  | timeOut => exact i.fits_attemptFailed now _ _
  | retry | giveUp | drained => exact fits_of_without rfl
  | @take s t event phase _ =>
      have watches : ({ i with phase := .watching t } : Informer).Fits :=
        fits.of_own (by rw [session?, phase]) rfl
      exact watches.consume now present event
  | closed => exact fits_openWatch _ now present
  | watch phase | stop phase | discard phase | drain phase =>
      exact fits.of_own (by rw [session?, phase]) rfl

theorem follow {cue : Cue} (h : i.follow? cue = some (j, args)) : j.Fits := by
  rcases act_of_follow h with
    ⟨now, present, act⟩ | ⟨_, _, rfl⟩ | ⟨now, present, response, _, _, rfl⟩
  · exact fits.act act
  · exact fits
  · have heard := heard_answer i now present response
    generalize i.answer now present response = j at heard
    cases heard with
    | ignored => exact fits
    | list => exact i.fits_takeOver now present _
    | failed => exact i.fits_attemptFailed now _ _
    | watch phase | drain phase => exact fits.of_own (by rw [session?, phase]) rfl

end Fits

/-- How a watch comes to its end at a time: the informer takes its last event, which says so, or
finds it closed. -/
def EndsCleanly (s : Session) (now : Nat) : Option Status → Prop
  | some status => status.isResumable = true ∧ ∃ t, s.take? now = some (.error status, t)
  | none => s.take? now = none ∧ s.isClosed = true

/-- **A watch that came to its end is followed at once by another one**, from the version that the
informer has come to, if that is in a year of four digits. -/
theorem follow?_cleanEnd {s : Session} {ending : Option Status} (phase : i.phase = .watching s)
    (running : i.stopping = false) (fits : i.Fits) (written : i.version.Written)
    (ends : EndsCleanly s now ending) (present : Instant) :
    ∃ j, i.follow? (.move now present) = some (j, none) ∧
      j.log = (now, .opened i.version) :: (now, .closed ending) :: i.log ∧
      j.phase = .watching (.start now present (i.feed.planFrom i.watchOptions i.version)) := by
  have queue : max 1 i.feed.config.eventBufferSize.toNat ≤ Session.longestQueue :=
    fits (by simp [session?, phase])
  cases ending with
  | none =>
      obtain ⟨untaken, closed⟩ := ends
      have move : i.follow? (.move now present) =
          some ((i.note now (.closed none)).rewatch now present, none) := by
        simp [follow?, move?, running, proceed?, phase, untaken, closed]
      refine ⟨_, move, ?_⟩
      rw [Informer.rewatch, openWatch_display (by exact written) (by exact queue)]
      exact ⟨rfl, rfl⟩
  | some status =>
      obtain ⟨resumable, t, taken⟩ := ends
      have move : i.follow? (.move now present) =
          some ((({ i with phase := .watching t } : Informer).note now
            (.closed (some status))).rewatch now present, none) := by
        simp [follow?, move?, running, proceed?, phase, taken, Informer.consume, resumable]
      refine ⟨_, move, ?_⟩
      rw [Informer.rewatch, openWatch_display (by exact written) (by exact queue)]
      exact ⟨rfl, rfl⟩

/-! ## The pauses of a run -/

/-- An informer that rests has no move before its pause is over, and then begins to list. -/
theorem move?_of_resting {wake time : Nat} (phase : i.phase = .resting wake)
    (running : i.stopping = false) (present : Instant) :
    (time < wake → i.move? time present = none) ∧
      (wake ≤ time → ∃ j args more, i.follow? (.move time present) = some (j, args) ∧
        j.log = more ++ (time, .began) :: i.log) := by
  constructor
  · intro early
    simp [move?, running, proceed?, phase, Nat.not_le.mpr early]
  · intro passed
    have follows : i.follow? (.move time present) = some (i.beginList time present) := by
      simp [follow?, move?, running, proceed?, phase, passed]
    rcases i.beginList_cases time present with asked | finished
    · rw [asked] at follows
      exact ⟨_, _, [(time, .asked (i.feed.argsFor i.listOptions))], follows, rfl⟩
    · rw [finished] at follows
      exact ⟨_, _, [(time, .finished (.error Retry.notTried))], follows, rfl⟩

/-- What comes after a note of a log that has its shape. -/
theorem Spacing.next (spacing : Spacing policy onTime now base notes i)
    {later earlier : List (Nat × InformerNote)} {e : Nat × InformerNote}
    (split : notes = later ++ e :: earlier) :
    later = [] ∨ ∃ rest next, later = rest ++ [next] ∧
      Succeeds policy onTime next (e :: earlier) := by
  rcases List.eq_nil_or_concat later with none | ⟨rest, next, rfl⟩
  · exact .inl none
  · exact .inr ⟨rest, next, List.concat_eq_append ..,
      spacing.spaced rest next _ (by simpa using split)⟩

/-- **The pauses before an informer lists again count the watches that failed in a row.** In every
run of an informer, whatever becomes of its watches:

* A watch that failed is followed at once by a pause. It is the delay of the retry whose number is
  that of the watches that failed before, since the run began or a watch last came to its end,
  whatever lists were made between them, up to the largest number that is counted.
* After a pause comes a list, not before the pause is over, and just then if the run is on time, or
  the end of the run, if it is shut down. No pause takes longer than any wait does.
* An informer that rests has no move before its pause is over, and then begins to list.
* A watch that came to its end is followed at once by the next one, without a pause and without a
  list, if the version that the informer has come to is in a year of four digits.
* The pauses after watches that fail in a row never get shorter. -/
theorem relists_spaced {stopping : Bool} {cues : List Cue}
    (run : (i.start now stopping).run? cues = some k) :
    ∃ notes, k.log = notes ++ i.log ∧
      (∀ later t status earlier, notes = later ++ (t, .closed (some status)) :: earlier →
        status.isResumable = false → ∃ rest, later = rest ++
          [(t, .rested (i.policy.delayMs (min (failuresInARow earlier) mostRelists)))]) ∧
      (∀ later t pause earlier, notes = later ++ (t, .rested pause) :: earlier →
        (later = [] ∧ k.phase = .resting (waitEnd t pause)) ∨
        (∃ rest begun, later = rest ++ [(begun, .began)] ∧ waitEnd t pause ≤ begun ∧
          ((i.start now stopping).Punctual now cues → begun = waitEnd t pause)) ∨
        ∃ rest ended, later = rest ++ [(ended, .finished (.ok ()))]) ∧
      (∀ wake, k.phase = .resting wake → k.stopping = false → ∀ time present,
        (time < wake → k.move? time present = none) ∧
        (wake ≤ time → ∃ j args more, k.follow? (.move time present) = some (j, args) ∧
          j.log = more ++ (time, .began) :: k.log)) ∧
      (∀ s time present ending, k.phase = .watching s → k.stopping = false → k.version.Written →
        EndsCleanly s time ending → ∃ j, k.follow? (.move time present) = some (j, none) ∧
          j.log = (time, .opened k.version) :: (time, .closed ending) :: k.log ∧
          j.phase = .watching (.start time present (k.feed.planFrom k.watchOptions k.version))) ∧
      ∀ later t q mid s p earlier,
        notes = later ++ (t, .rested q) :: (mid ++ (s, .rested p) :: earlier) →
        (∀ e ∈ mid, e.2.isCleanEnd = false) → p ≤ q := by
  obtain ⟨clock, notes, spacing⟩ := spacing_of_run (i.spacing_start now stopping)
    (id : (i.start now stopping).Punctual now cues → _) run
  have fits : k.Fits := run?_preserves (fun follows fits => fits.follow follows) run
    (fits_of_without rfl)
  refine ⟨notes, spacing.log_eq, ?_, ?_, ?_, ?_, ?_⟩
  · intro later t status earlier split failed
    rcases spacing.next split with rfl | ⟨rest, next, rfl, succeeds⟩
    · subst split
      rcases spacing.last with settled | ⟨_, _, _, same, _⟩
      · exact absurd settled (by simp [Settled, failed])
      · cases same
    · exact ⟨rest, by rw [succeeds.failed t status earlier rfl failed]; rfl⟩
  · intro later t pause earlier split
    rcases spacing.next split with rfl | ⟨rest, next, rfl, succeeds⟩
    · subst split
      rcases spacing.last with settled | ⟨_, _, _, same, phase⟩
      · exact settled.elim
      · cases same
        exact .inl ⟨rfl, phase⟩
    · rcases succeeds.paused t pause earlier rfl with ⟨begun, rfl, passed, inTime⟩ | ⟨ended, rfl⟩
      · exact .inr (.inl ⟨rest, begun, rfl, passed, inTime⟩)
      · exact .inr (.inr ⟨rest, ended, rfl⟩)
  · intro wake phase running time present
    exact move?_of_resting phase running present
  · intro s time present ending phase running written ends
    exact follow?_cleanEnd phase running fits written ends present
  · intro later t q mid s p earlier split unclean
    exact spacing.spaced.le_of_unclean split unclean

/-- An informer whose lists are answered at once and whose watch fails twice, each time at its first
search. -/
def untilSecondFailure : List Cue :=
  [.move 0 .epoch, .answer 0 .epoch (.ok ⟨[.sample 1 0 5]⟩), .proceed 16000,
    .answer 16000 .epoch (.error (.unavailable "")), .proceed 16000, .move 16000 .epoch,
    .move 17000 .epoch, .answer 17000 .epoch (.ok ⟨[.sample 1 0 5]⟩), .proceed 33000,
    .answer 33000 .epoch (.error (.unavailable "")), .proceed 33000, .move 33000 .epoch]

/-- An informer that lists and watches to the end of the lifetime. -/
def untilLifetimeEnd : List Cue :=
  [.move 0 .epoch, .answer 0 .epoch (.ok ⟨[.sample 1 0 5]⟩), .expire 2000000, .proceed 2000000,
    .proceed 2000000]

/-- The list between two failures does not reset the pauses: the second one is twice the first. And
a watch that came to the end of its lifetime is followed by another one at once. -/
theorem second_pause_doubled :
    (∃ k status earlier, (opened {} .empty {} 0 false).run? untilSecondFailure = some k ∧
      k.log = (33000, .rested 2000) :: (33000, .closed (some status)) :: earlier ∧
      failuresInARow earlier = 1 ∧ ({} : BackoffPolicy).delayMs 1 = 2000 ∧
      k.phase = .resting 35000 ∧ k.move? 34999 .epoch = none ∧
      ∃ j args more, k.follow? (.move 35000 .epoch) = some (j, args) ∧
        j.log = more ++ (35000, .began) :: k.log) ∧
    ∃ k j status, (opened {} .empty {} 0 false).run? untilLifetimeEnd = some k ∧
      k.follow? (.move 2000000 .epoch) = some (j, none) ∧
      j.log = (2000000, .opened k.version) :: (2000000, .closed (some status)) :: k.log := by
  constructor
  · obtain ⟨k, status, earlier, run, log, failures, phase, running⟩ :
        ∃ k status earlier, (opened {} .empty {} 0 false).run? untilSecondFailure = some k ∧
          k.log = (33000, .rested 2000) :: (33000, .closed (some status)) :: earlier ∧
          failuresInARow earlier = 1 ∧ k.phase = .resting 35000 ∧ k.stopping = false :=
      ⟨_, _, _, rfl, rfl, rfl, rfl, rfl⟩
    obtain ⟨_, _, _, _, rests, _⟩ := relists_spaced run
    have early := (rests 35000 phase running 34999 .epoch).1 (by decide)
    have passed := (rests 35000 phase running 35000 .epoch).2 (Nat.le_refl _)
    exact ⟨k, status, earlier, run, log, failures, rfl, phase, early, passed⟩
  · obtain ⟨k, s, status, run, phase, running, version, ends⟩ :
        ∃ k s status, (opened {} .empty {} 0 false).run? untilLifetimeEnd = some k ∧
          k.phase = .watching s ∧ k.stopping = false ∧ k.version = ⟨.onFirstDay 5⟩ ∧
          EndsCleanly s 2000000 (some status) := ⟨_, _, _, rfl, rfl, rfl, rfl, rfl, _, rfl⟩
    have written : k.version.Written := by
      rw [version]
      decide
    obtain ⟨_, _, _, _, _, rewatches, _⟩ := relists_spaced run
    obtain ⟨j, follows, log, _⟩ := rewatches s 2000000 .epoch _ phase running written ends
    exact ⟨k, j, status, run, follows, log⟩

/-- Two runs in which what follows a watch is not what the policy and the end of the watch demand.
The delay of a policy is longer than thirty years: the watch fails at its first search, and the list
begins when thirty years are over and the delay is not. And the version that an informer has come to
is in the year ten thousand: its watch comes to the end of its lifetime, and none is opened after
it. -/
theorem relist_before_delay :
    (∃ i k status earlier, i = opened {} .empty
          { baseDelayMs := 1000000000000, maxDelayMs := 1000000000000 } 0 false ∧
        i.run? [.move 0 .epoch, .answer 0 .epoch (.ok ⟨[.sample 1 0 5]⟩), .proceed 16000,
          .answer 16000 .epoch (.error (.unavailable "")), .proceed 16000, .move 16000 .epoch,
          .move 946080016000 .epoch] = some k ∧
        k.log = (946080016000, .asked {}) :: (946080016000, .began) ::
          (16000, .rested 1000000000000) :: (16000, .closed (some status)) :: earlier ∧
        status.isResumable = false ∧ failuresInARow earlier = 0 ∧
        i.policy.delayMs 0 = 1000000000000 ∧ 946080016000 < 16000 + i.policy.delayMs 0) ∧
    ∃ cues k status fault earlier, (opened {} .empty {} 0 false).run? cues = some k ∧
      k.log = (1800000, .finished (.error (.token fault))) ::
        (1800000, .closed (some status)) :: earlier ∧
      status.isResumable = true := by
  have fits : max 1 ({} : Feed).config.eventBufferSize.toNat ≤ Session.longestQueue := by decide
  have asked : (watchingSample {}).follow? (.proceed 16000) =
      some (searchingSample {}, some { changedSince := some (.onFirstDay 6) }) := rfl
  have latest : (SearchResponse.mk [.tenThousand]).latestChange? = some ⟨.tenThousand⟩ := rfl
  have heard := follow?_answer (answer_accepted (i := searchingSample {}) rfl 16000 .epoch rfl rfl
    latest (by decide) (WatchPlan.batch_of_pairwise (by decide)))
  have run : (opened {} .empty {} 0 false).run? _ = some _ :=
    (watchingSample_reached fits _).trans ((run?_cons asked _).trans ((run?_cons heard
      [.proceed 16000, .move 16000 .epoch, .proceed 16000, .expire 1800000, .proceed 1800000,
        .proceed 1800000, .move 1800000 .epoch]).trans rfl))
  exact ⟨⟨_, _, _, _, rfl, rfl, rfl, rfl, rfl, rfl, by decide⟩, _, _, _, _, _, run, rfl, rfl⟩

end Informer

end BugFeed
