import BugFeed.Proofs.Informer.Run
import BugFeed.Proofs.Retry.Attempts

/-!
# Listing as a task

An informer lists as any task is tried: it searches until an answer comes in time that is no fault,
or until the policy allows no further search (`Informer.run?_list`). Its own moves and the answers
at their times make up the run (`ListAnswers.cues`), in which the informer has no other move
(`Informer.Punctual`), and its log tells of each search when it begins and, if it fails, when it has
failed (`Retry.Slot.notes`). So what is known of the attempts at a task is known of the searches for
a list (`outcome_of_attempts`).

The run is by induction on how the attempts went (`Retry.Tries`): the informer waits for each of
them, and for the pause after one that failed, and is then about to make the next one.
-/

namespace BugFeed

set_option autoImplicit false

namespace Retry

/-- What the log tells of a search for a list. -/
def Slot.notes (args : SearchArgs) (slot : Slot BugList) : List (Nat × InformerNote) :=
  (slot.begun, .asked args) ::
    match slot.outcome with
    | .ok _ => []
    | .error fault => [(slot.ended, .failed fault)]

/-- What the log tells of some searches for a list, the last one first. -/
def Slot.told (args : SearchArgs) (slots : List (Slot BugList)) : List (Nat × InformerNote) :=
  (slots.flatMap (Slot.notes args)).reverse

theorem Slot.told_cons_of_ok {args : SearchArgs} {slot : Slot BugList} {list : BugList}
    (outcome : slot.outcome = .ok list) (slots : List (Slot BugList)) :
    Slot.told args (slot :: slots) = Slot.told args slots ++ [(slot.begun, .asked args)] := by
  simp [told, notes, outcome]

theorem Slot.told_cons_of_error {args : SearchArgs} {slot : Slot BugList} {fault : Fault}
    (outcome : slot.outcome = .error fault) (slots : List (Slot BugList)) :
    Slot.told args (slot :: slots) =
      Slot.told args slots ++ [(slot.ended, .failed fault), (slot.begun, .asked args)] := by
  simp [told, notes, outcome]

end Retry

/-- How the searches for a list are answered: each takes so many milliseconds. It begins at an
instant, and at another one its answer comes or is no longer waited for. -/
structure ListAnswers where
  latency : Nat → Nat
  began : Nat → Instant
  ended : Nat → Instant
  response : Nat → Except TransportFault SearchResponse

/-- The attempts to list that these answers are. -/
def ListAnswers.attempts (a : ListAnswers) (feed : Feed) (k : Nat) : Attempt BugList where
  latency := a.latency k
  result := feed.listOf ⟨a.began k⟩ (a.response k)

namespace Informer

/-- The time at which a cue comes. A request comes at the time that it is. -/
def Cue.at (clock : Nat) : Cue → Nat
  | .move now _ | .expire now | .proceed now | .answer now _ _ => now
  | .shutDown => clock

end Informer

namespace ListAnswers

/-- What ends a search at a time: its answer if that comes within so many milliseconds, else the
informer itself. -/
def ends (a : ListAnswers) (limit k time : Nat) : Informer.Cue :=
  if a.latency k ≤ limit then .answer time (a.ended k) (a.response k) else .move time (a.ended k)

/-- The cues of some searches from number `k` on, the first of which has begun. -/
def cues (a : ListAnswers) (limit k : Nat) : List (Retry.Slot BugList) → List Informer.Cue
  | [] => []
  | [slot] => [a.ends limit k slot.ended]
  | slot :: next :: slots =>
    a.ends limit k slot.ended :: .move next.begun (a.began (k + 1)) ::
      a.cues limit (k + 1) (next :: slots)

/-- After the first of several searches there is a pause, and then the next one begins. -/
theorem cues_slots (a : ListAnswers) (r : Retry) (attempts : Nat → Attempt BugList) (now : Nat)
    {n : Nat} (more : 0 < n) :
    let done := now + r.given (attempts r.failures)
    a.cues r.limit r.failures (r.slots attempts now (n + 1)) =
      a.ends r.limit r.failures done :: .move (waitEnd done r.pause) (a.began (r.failures + 1)) ::
        a.cues r.limit (r.failures + 1)
          (r.failed.paused.slots attempts (waitEnd done r.pause) n) := by
  obtain ⟨m, rfl⟩ := Nat.exists_eq_add_one_of_ne_zero (Nat.pos_iff_ne_zero.mp more)
  rfl

theorem at_ends (a : ListAnswers) (limit k time clock : Nat) :
    (a.ends limit k time).at clock = time := by
  rw [ends]
  split <;> rfl

end ListAnswers

namespace Informer

variable {i : Informer} {now done : Nat}

/-- A run of an informer from a time on in which time never goes back, and no time passes at which
the informer has a move. -/
def Punctual (clock : Nat) (i : Informer) : List Cue → Prop
  | [] => True
  | cue :: cues =>
    clock ≤ cue.at clock ∧
      (∀ time present, clock ≤ time → time < cue.at clock → i.move? time present = none) ∧
      ∀ j args, i.follow? cue = some (j, args) → j.Punctual (cue.at clock) cues

theorem Punctual.cons {clock : Nat} {cue : Cue} {cues : List Cue} {j : Informer}
    {args : Option SearchArgs} (onward : clock ≤ cue.at clock)
    (idle : ∀ time present, clock ≤ time → time < cue.at clock → i.move? time present = none)
    (first : i.follow? cue = some (j, args)) (rest : j.Punctual (cue.at clock) cues) :
    i.Punctual clock (cue :: cues) := by
  refine ⟨onward, idle, fun k other follows => ?_⟩
  cases follows.symm.trans first
  exact rest

/-- The informer with another log. -/
def withLog (i : Informer) (log : List (Nat × InformerNote)) : Informer := { i with log := log }

/-- What an informer does with what its attempts to list came to. -/
def conclude (i : Informer) (now : Nat) (present : Instant) : Except Fault BugList → Informer
  | .ok list => i.takeOver now present list
  | .error fault => i.finish now (.error fault)

theorem openWatch_of_phase (i : Informer) (phase : InformerPhase) (now : Nat) (present : Instant) :
    ({ i with phase := phase } : Informer).openWatch now present = i.openWatch now present := by
  have same : ({ i with phase := phase } : Informer).watchOptions = i.watchOptions := by
    rw [watchOptions, watchOptions]
  unfold openWatch
  rw [same]
  generalize i.feed.watch i.watchOptions now present = watch
  rcases watch with (fault | _) | session
  · rfl
  · rfl
  · rfl

/-- What an informer was doing does not matter for what it does now. -/
theorem conclude_of_phase (i : Informer) (phase : InformerPhase) (now : Nat) (present : Instant)
    (result : Except Fault BugList) :
    ({ i with phase := phase } : Informer).conclude now present result =
      i.conclude now present result := by
  cases result with
  | error fault => rfl
  | ok list =>
      simp only [conclude, takeOver]
      cases ResourceVersion.parse list.version with
      | error fault => rfl
      | ok version =>
          exact openWatch_of_phase (({ i with
            store := .replace list.items, synced := true, version := version } : Informer).note now
              (.listed list)) phase now present

/-! ## The attempts -/

/-- An attempt to list that fails, by its answer or because it takes too long. -/
theorem follow?_failed {a : ListAnswers} {r : Retry} {fault : Fault}
    (phase : i.phase = .listing r (now + r.limit) ⟨a.began r.failures⟩)
    (running : i.stopping = false)
    (outcome : r.outcome (a.attempts i.feed r.failures) = .error fault)
    (ended : now + r.given (a.attempts i.feed r.failures) = done) :
    i.follow? (a.ends r.limit r.failures done) = some (i.attemptFailed done r fault, none) := by
  subst ended
  rw [Retry.outcome] at outcome
  split at outcome
  · rename_i inTime
    have listed : i.feed.listOf ⟨a.began r.failures⟩ (a.response r.failures) = .error fault :=
      outcome
    rw [ListAnswers.ends, if_pos (by exact inTime)]
    simp only [follow?, answer, phase, running, listed]
    rfl
  · rename_i late
    cases outcome
    have given : r.given (a.attempts i.feed r.failures) = r.limit :=
      Nat.min_eq_right (Nat.le_of_not_le late)
    rw [ListAnswers.ends, if_neg (by exact late), given]
    simp only [follow?, move?, running, proceed?, phase, Nat.le_refl, Bool.false_eq_true, if_true,
      if_false]

/-- An attempt to list that succeeds. -/
theorem follow?_listed {a : ListAnswers} {r : Retry} {list : BugList}
    (phase : i.phase = .listing r (now + r.limit) ⟨a.began r.failures⟩)
    (running : i.stopping = false)
    (outcome : r.outcome (a.attempts i.feed r.failures) = .ok list)
    (ended : now + r.given (a.attempts i.feed r.failures) = done) :
    i.follow? (a.ends r.limit r.failures done) =
      some (i.takeOver done (a.ended r.failures) list, none) := by
  subst ended
  rw [Retry.outcome] at outcome
  split at outcome
  · rename_i inTime
    have listed : i.feed.listOf ⟨a.began r.failures⟩ (a.response r.failures) = .ok list := outcome
    rw [ListAnswers.ends, if_pos (by exact inTime)]
    simp only [follow?, answer, phase, running, listed]
    rfl
  · cases outcome

/-- An informer that waits for the answer to a search for a list has no move before its deadline. -/
theorem move?_of_listing {r : Retry} {deadline : Nat} {anchor : ResourceVersion}
    (phase : i.phase = .listing r deadline anchor) (running : i.stopping = false) {time : Nat}
    (early : time < deadline) (present : Instant) : i.move? time present = none := by
  simp [move?, running, proceed?, phase, Nat.not_le.mpr early]

/-- An informer that pauses before it tries to list again has no move before the pause is over. -/
theorem move?_of_retrying {r : Retry} {wake : Nat} (phase : i.phase = .retrying r wake)
    (running : i.stopping = false) {time : Nat} (early : time < wake) (present : Instant) :
    i.move? time present = none := by
  simp [move?, running, proceed?, phase, Nat.not_le.mpr early]

/-- An informer that searches for a list waits until the search ends. -/
theorem Punctual.ends {a : ListAnswers} {r : Retry} {j : Informer} {cues : List Cue}
    (phase : i.phase = .listing r (now + r.limit) ⟨a.began r.failures⟩)
    (running : i.stopping = false)
    (ended : now + r.given (a.attempts i.feed r.failures) = done)
    (first : i.follow? (a.ends r.limit r.failures done) = some (j, none))
    (rest : j.Punctual done cues) : i.Punctual now (a.ends r.limit r.failures done :: cues) := by
  have within : r.given (a.attempts i.feed r.failures) ≤ r.limit := Nat.min_le_right _ _
  have comes := a.at_ends r.limit r.failures done now
  refine .cons (by omega) (fun time present _ early => ?_) first (by rwa [comes])
  exact move?_of_listing phase running (by omega) present

/-- An informer whose attempt to list failed begins another one when its pause is over. -/
theorem follow?_again {r : Retry} {wake : Nat} (phase : i.phase = .retrying r wake)
    (running : i.stopping = false) (present : Instant) :
    i.follow? (.move wake present) = some (i.ask wake present r) := by
  simp [follow?, move?, running, proceed?, phase]

/-- **An informer that has begun to search for a list makes the attempts of a task.** -/
theorem run?_attempts {a : ListAnswers} {feed : Feed} {args : SearchArgs} {r : Retry}
    {last : Fault} {trial : Trial BugList} {older : List (Nat × InformerNote)}
    (tries : r.Tries (a.attempts feed) last trial) (may : r.mayTry = true)
    (feeds : i.feed = feed) (asks : i.feed.argsFor i.listOptions = args)
    (phase : i.phase = .listing r (now + r.limit) ⟨a.began r.failures⟩)
    (running : i.stopping = false) (log : i.log = (now, .asked args) :: older) :
    let slots := r.slots (a.attempts feed) now trial.attempts
    i.Punctual now (a.cues r.limit r.failures slots) ∧
      i.run? (a.cues r.limit r.failures slots) =
        some ((i.withLog (Retry.Slot.told args slots ++ older)).conclude (now + trial.spent)
          (a.ended (r.failures + trial.attempts - 1)) trial.result) := by
  induction tries generalizing i now older with
  | none refused => cases may.symm.trans refused
  | @success r last list _ outcome =>
      subst feeds asks
      have follows := follow?_listed phase running outcome rfl
      refine ⟨.ends phase running rfl follows trivial, ?_⟩
      rw [Retry.slots, Retry.Slot.told_cons_of_ok outcome, List.append_assoc, List.singleton_append,
        ← log]
      exact run?_cons follows []
  | @failure r last fault _ outcome refused =>
      subst feeds asks
      have follows := follow?_failed phase running outcome rfl
      rw [attemptFailed, if_neg (by rw [refused]; exact Bool.false_ne_true)] at follows
      refine ⟨.ends phase running rfl follows trivial, ?_⟩
      rw [Retry.slots, Retry.Slot.told_cons_of_error outcome, List.append_assoc, List.cons_append,
        List.singleton_append, ← log]
      exact run?_cons follows []
  | @again r last fault rest _ outcome more others ih =>
      subst feeds asks
      obtain ⟨done, ended⟩ : ∃ done, now + r.given (a.attempts i.feed r.failures) = done :=
        ⟨_, rfl⟩
      have follows := follow?_failed phase running outcome ended
      rw [attemptFailed, if_pos more] at follows
      generalize waits : ({ i.note done (.failed fault) with
        phase := .retrying r.failed.paused (waitEnd done r.pause) } : Informer) = j at follows
      have pauses : j.phase = .retrying r.failed.paused (waitEnd done r.pause) := by rw [← waits]
      have runs : j.stopping = false := by rw [← waits]; exact running
      have again := follow?_again pauses runs (a.began (r.failures + 1))
      obtain ⟨onward, run⟩ := @ih (j.ask (waitEnd done r.pause) (a.began (r.failures + 1))
        r.failed.paused).1 (waitEnd done r.pause) j.log more (by rw [← waits]; rfl)
        (by rw [← waits]; rfl) rfl runs (by rw [← waits]; rfl)
      have cues := a.cues_slots r (a.attempts i.feed) now (others.length_pauses.2 more)
      simp only [ended] at cues
      have logs : (done, .failed fault) :: (now, .asked (i.feed.argsFor i.listOptions)) :: older =
          j.log := by
        rw [← waits, ← log]
        rfl
      have told : Retry.Slot.told (i.feed.argsFor i.listOptions)
          (r.slots (a.attempts i.feed) now (rest.attempts + 1)) ++ older =
            Retry.Slot.told (i.feed.argsFor i.listOptions)
              (r.failed.paused.slots (a.attempts i.feed) (waitEnd done r.pause) rest.attempts) ++
                j.log := by
        rw [Retry.slots, Retry.Slot.told_cons_of_error outcome, ended, List.append_assoc, ← logs]
        rfl
      have spent : waitEnd done r.pause + rest.spent =
          now + (waitEnd (r.given (a.attempts i.feed r.failures)) r.pause + rest.spent) := by
        simp only [waitEnd, ← ended]
        omega
      have final : r.failed.paused.failures + rest.attempts - 1 =
          r.failures + (rest.attempts + 1) - 1 := by
        change r.failures + 1 + rest.attempts - 1 = _
        omega
      refine ⟨?_, ?_⟩
      · rw [cues]
        refine .ends phase running ended follows (.cons (le_waitEnd _ _)
          (fun time present _ early => move?_of_retrying pauses runs early present) again onward)
      · rw [cues, run?_cons follows, run?_cons again, told, ← spent, ← final]
        refine run.trans (congrArg some ?_)
        rw [← waits]
        exact conclude_of_phase (i.withLog _) _ _ _ _

/-- **An informer that begins to list makes the attempts of a task.** -/
theorem run?_list (a : ListAnswers) {wake : Nat} (phase : i.phase = .resting wake)
    (due : wake ≤ now) (running : i.stopping = false) :
    let trial := Retry.run i.policy (a.attempts i.feed)
    let slots := (Retry.start i.policy).slots (a.attempts i.feed) now trial.attempts
    let cues := .move now (a.began 0) :: a.cues i.policy.timeoutMs.toNat 0 slots
    let told := Retry.Slot.told (i.feed.argsFor i.listOptions) slots
    i.Punctual now cues ∧ i.run? cues =
      some (((i.count (.cycled .list)).withLog (told ++ (now, .began) :: i.log)).conclude
        (now + trial.spent) (a.ended (trial.attempts - 1)) trial.result) := by
  intro trial slots cues told
  have begins : i.follow? (.move now (a.began 0)) = some (i.beginList now (a.began 0)) := by
    simp [follow?, move?, running, proceed?, phase, due]
  have idle : ∀ time present, now ≤ time → time < now → i.move? time present = none :=
    fun time present since before => absurd since (Nat.not_le.mpr before)
  have tries : (Retry.start i.policy).Tries (a.attempts i.feed) Retry.notTried trial :=
    Retry.tries_tryFrom _ _ _
  have kept : Retry.start ((i.count (.cycled .list)).note now .began).policy =
      Retry.start i.policy := rfl
  rw [beginList, kept] at begins
  cases may : (Retry.start i.policy).mayTry with
  | false =>
      rw [if_neg (by rw [may]; exact Bool.false_ne_true)] at begins
      have none := tries.eq_of_not_mayTry may
      have alone : cues = [.move now (a.began 0)] := by
        simp only [cues, slots, none]
        rfl
      have silent : told = [] := by
        simp only [told, slots, none]
        rfl
      rw [alone, silent, none]
      exact ⟨.cons (Nat.le_refl _) idle begins trivial, run?_cons begins []⟩
  | true =>
      rw [if_pos may] at begins
      obtain ⟨punctual, run⟩ := run?_attempts (i := (((i.count (.cycled .list)).note now
        .began).ask now (a.began 0) (Retry.start i.policy)).1) tries may rfl rfl rfl running rfl
      have final : (Retry.start i.policy).failures + trial.attempts - 1 = trial.attempts - 1 :=
        congrArg (· - 1) (Nat.zero_add _)
      rw [final] at run
      refine ⟨.cons (Nat.le_refl _) idle begins punctual, (run?_cons begins _).trans (run.trans ?_)⟩
      exact congrArg some (conclude_of_phase ((i.count (.cycled .list)).withLog _) _ _ _ _)

end Informer

/-! ## The outcome -/

/-- **A task is tried until it succeeds in time, or as often as the policy allows.** Whatever the
attempts at a task are:

* if there is a first one that succeeds in time, the task is tried up to it, or as often as the
  policy allows if that is less, and in the first case what it gives is what the task came to;
* if none of those that the policy allows succeeds in time, all are made, and the task came to the
  fault of the last one: that it took too long, or its own; if none is allowed, none is made, and
  the task came to a fault of its own;
* there is one pause less than there are attempts, and the task takes as long as its attempts, each
  of which is given no longer than the policy says, and its pauses, of which none takes longer than
  any wait; each attempt begins when the one before has ended, the first one at once, and the last
  one ends with the task.

An informer that begins to list does just this: in the run in which each search is answered as the
attempt says, or is given up when it has taken too long, its log tells of these attempts at their
times, and at the end of the task it goes on with what the task came to. -/
theorem outcome_of_attempts (policy : BackoffPolicy) :
    (∀ {α : Type} (attempts : Nat → Attempt α) (now : Nat),
      let n := policy.maxRetries.toNat
      let limit := policy.timeoutMs.toNat
      let trial := Retry.run policy attempts
      let slots := (Retry.start policy).slots attempts now trial.attempts
      (∀ i value, (∀ k < i, ∀ other, ¬(attempts k).Succeeds limit other) →
        (attempts i).Succeeds limit value →
        trial.attempts = min (i + 1) n ∧ (i < n → trial.result = .ok value)) ∧
      ((∀ k < n, ∀ value, ¬(attempts k).Succeeds limit value) → trial.attempts = n ∧
        (n = 0 → trial.result = .error (.retryTaskFailed "Task failed after max retries")) ∧
        ∀ k, n = k + 1 →
          (limit < (attempts k).latency →
            trial.result = .error (.retryTimeout (.ofMillis limit))) ∧
          ∀ fault, (attempts k).latency ≤ limit → (attempts k).result = .error fault →
            trial.result = .error fault) ∧
      trial.pauses.length = trial.attempts - 1 ∧
      trial.spent = ((List.range trial.attempts).map fun k => min (attempts k).latency limit).sum +
        (trial.pauses.map fun pause => min pause longestWait).sum ∧
      slots.length = trial.attempts ∧
      (∀ k slot, slots[k]? = some slot →
        slot.ended = slot.begun + min (attempts k).latency limit ∧
          slot.outcome = (Retry.start policy).outcome (attempts k)) ∧
      slots.Pairwise (fun a b => a.ended ≤ b.begun) ∧
      (∀ slot ∈ slots.head?, slot.begun = now) ∧
      ∀ slot ∈ slots.getLast?, slot.ended = now + trial.spent) ∧
    ∀ (i : Informer) (a : ListAnswers) (now wake : Nat), i.policy = policy →
      i.phase = .resting wake → wake ≤ now → i.stopping = false →
      let trial := Retry.run policy (a.attempts i.feed)
      let slots := (Retry.start policy).slots (a.attempts i.feed) now trial.attempts
      let cues := .move now (a.began 0) :: a.cues policy.timeoutMs.toNat 0 slots
      let told := Retry.Slot.told (i.feed.argsFor i.listOptions) slots
      i.Punctual now cues ∧ i.run? cues =
        some (((i.count (.cycled .list)).withLog (told ++ (now, .began) :: i.log)).conclude
          (now + trial.spent) (a.ended (trial.attempts - 1)) trial.result) := by
  refine ⟨fun {α} attempts now => ?_, ?_⟩
  · intro n limit trial slots
    have tries : (Retry.start policy).Tries attempts Retry.notTried trial :=
      Retry.tries_tryFrom _ _ _
    have counted (k : Nat) : (Retry.start policy).failures + k = k := Nat.zero_add k
    obtain ⟨apart, _, final⟩ := tries.pairwise_slots now
    refine ⟨?_, ?_, tries.length_pauses.1, ?_, Retry.length_slots _ _ _ _, ?_, apart,
      fun slot => Retry.begun_of_head, final⟩
    · intro i value failed succeeded
      refine tries.succeeds (fun k before => ?_) ?_
      · rw [counted]
        exact Retry.fails_of_not_succeeds (failed k before)
      · rw [counted]
        exact Retry.outcome_eq_ok_iff.mpr succeeded
    · intro failed
      obtain ⟨count, none, last⟩ := tries.exhausted fun k _ before =>
        Retry.fails_of_not_succeeds (failed k before)
      refine ⟨count, fun zero => none (Nat.le_of_eq zero), fun k allowed => ?_⟩
      obtain ⟨fault, outcome, result⟩ := last k (Nat.zero_le k) allowed
      rw [Retry.outcome] at outcome
      refine ⟨fun late => ?_, fun other inTime failed => ?_⟩
      · rw [if_neg (by exact Nat.not_le.mpr late)] at outcome
        cases outcome
        exact result
      · rw [if_pos (by exact inTime), failed] at outcome
        cases outcome
        exact result
    · rw [List.range_eq_range']
      exact tries.spent
    · intro k slot made
      have known := Retry.getElem?_slots made
      rwa [counted] at known
  · rintro i a now wake rfl phase due running
    exact Informer.run?_list a phase due running

/-- An informer that is refused at first, then has to wait too long, and is answered at last. -/
theorem third_search_answered :
    let policy : BackoffPolicy :=
      { maxRetries := 3, timeoutMs := 100, baseDelayMs := 10, maxDelayMs := 15 }
    let a : ListAnswers := {
      latency := fun k => if k = 0 then 30 else if k = 1 then 500 else 20
      began := fun _ => .epoch
      ended := fun _ => .epoch
      response := fun k => if k = 0 then .error (.unavailable "") else .ok ⟨[]⟩ }
    let i := Informer.opened {} .empty policy 0 false
    let list : BugList := .ofResponse ⟨[]⟩ i.feed.includes ⟨.epoch⟩
    let trial := Retry.run policy (a.attempts i.feed)
    trial.attempts = 3 ∧ trial.result = .ok list ∧ trial.spent = 175 ∧
      ∃ j : Informer, i.run? [.move 0 .epoch, .answer 30 .epoch (.error (.unavailable "")),
        .move 40 .epoch, .move 140 .epoch, .move 155 .epoch, .answer 175 .epoch (.ok ⟨[]⟩)] =
          some (j.takeOver 175 .epoch list) := by
  intro policy a i list trial
  have refused : i.feed.listOf ⟨.epoch⟩ (.error (.unavailable "")) =
      .error (.transport (.unavailable "")) := rfl
  have listed : i.feed.listOf ⟨.epoch⟩ (.ok ⟨[]⟩) = .ok list := rfl
  have whole : trial = ⟨.ok list, 3, [10, 15], 175⟩ := by
    simp [trial, policy, a, refused, listed, ListAnswers.attempts, Retry.run, Retry.tryFrom,
      Retry.start, Retry.mayTry, Retry.outcome, Retry.given, Retry.failed, Retry.paused,
      Retry.limit, waitEnd, longestWait]
  have failed : ∀ k < 2, ∀ other, ¬(a.attempts i.feed k).Succeeds policy.timeoutMs.toNat other := by
    rintro k before other ⟨inTime, succeeded⟩
    obtain rfl | rfl : k = 0 ∨ k = 1 := by omega
    · cases succeeded
    · exact absurd inTime (by decide)
  obtain ⟨tried, lists⟩ := outcome_of_attempts policy
  obtain ⟨count, result⟩ := (tried (a.attempts i.feed) 0).1 2 list failed ⟨by decide, rfl⟩
  obtain ⟨_, run⟩ := lists i a 0 0 rfl rfl (Nat.le_refl 0) rfl
  change i.run? (_ :: a.cues 100 0 ((Retry.start policy).slots _ 0 trial.attempts)) =
    some (Informer.conclude _ (0 + trial.spent) _ trial.result) at run
  rw [whole] at run
  exact ⟨count, result (by decide), congrArg Trial.spent whole, _, run⟩

end BugFeed
