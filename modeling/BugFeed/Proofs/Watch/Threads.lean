import BugFeed.Proofs.Watch.Ending
import BugFeed.Watch.Task

/-!
# Runs of a session among other threads

The cues of a task are what happens to its session, at any time and from any thread, and the steps
of its work. A step that depends on the signal is a look at it and an act after that, with any
cues of other threads in between (`Task.Cue`). If nothing comes in between, the two are a step of
the session (`run?_looked`), and all that a session does by steps of its own its task may do as well
(`exists_run_of_session`).

What a session is bound to, it is bound to here as well: what it owes is a matter of the faults that
it heard of, and only a task that saw the signal before it fired goes on to hear of one. So
`Session.Lawful` is kept by all steps of the task, along with what the task saw (`Sound`).

A stop that the task has not overlooked, as it was not between a look and the act that followed,
makes all the rest of the run one of the session alone (`session_of_stopped`).
-/

namespace BugFeed

set_option autoImplicit false

/-- Whether a cue comes from outside of the work of a session. -/
def Session.Cue.isOutside : Session.Cue → Bool
  | .expire _ | .take _ | .stop _ | .close | .drop _ => true
  | .proceed _ | .answer _ _ => false

/-- Whether a cue asks the session to stop. -/
def Session.Cue.isStop : Session.Cue → Bool
  | .stop _ => true
  | _ => false

/-- What happens to a session from outside leaves its phase alone. -/
theorem Session.phase_of_outside {s t : Session} {cue : Session.Cue}
    (outside : cue.isOutside = true) (h : s.follow? cue = some t) : t.phase = s.phase := by
  cases cue with
  | expire now =>
      simp only [follow?, expire?] at h
      split at h
      · cases h
      · cases h
        exact s.phase_fire now .expired
  | take now =>
      obtain ⟨⟨event, u⟩, taken, rfl⟩ := Option.map_eq_some_iff.mp h
      rw [(queue_of_take taken).2]
      rfl
  | stop now =>
      cases h
      exact s.phase_fire now .requested
  | close =>
      cases h
      rfl
  | drop now =>
      cases h
      exact phase_fire _ now .requested
  | proceed | answer => cases outside

namespace View

def isAway : View → Bool
  | .away => true
  | .clear | .holding _ => false

theorem isAway_iff {view : View} : view.isAway = true ↔ view = .away := by
  cases view <;> simp [isAway]

/-- The fault in the answer that a task has picked up. -/
def fault? : View → Option TransportFault
  | .holding response => (Note.answered response).fault?
  | .away | .clear => none

/-- What a task saw is the point at which its session stands. -/
def Fits : View → Phase → Prop
  | .away, _ => True
  | .clear, phase => Session.Leaves phase
  | .holding _, phase => phase = .searching

theorem Fits.ne_ended {view : View} {phase : Phase} (fits : view.Fits phase)
    (looks : view ≠ .away) : phase ≠ .ended := by
  cases view with
  | away => exact absurd rfl looks
  | clear => exact Session.Leaves.ne_ended fits
  | holding response =>
      rw [show phase = .searching from fits]
      nofun

end View

namespace Task

variable {t u : Task} {now : Nat}

/-! ## Cues -/

/-- One thing that a task does or that happens to its session. -/
inductive Cue where
  /-- A cue of the session: one from outside, or a step of its work with a look and act at once. -/
  | session (cue : Session.Cue)
  /-- The task looks at the signal. -/
  | look (now : Nat)
  /-- The task does what it looked for. -/
  | act (now : Nat)
  /-- The task picks the answer to the search up. -/
  | pickUp (response : Except TransportFault SearchResponse)
  /-- The task waits. -/
  | wait

/-- Whether a task can follow a cue of its session: one from outside at any time, a step of the work
when it has nothing else to do. Answers are picked up. -/
def admits (t : Task) : Session.Cue → Bool
  | .proceed _ => t.view.isAway
  | .answer _ _ => false
  | .expire _ | .take _ | .stop _ | .close | .drop _ => true

/-- The task after a cue, if it can follow it. -/
def follow? (t : Task) : Cue → Option Task
  | .session cue =>
    if t.admits cue then (t.session.follow? cue).map fun s => { t with session := s } else none
  | .look now => t.look? now
  | .act now => t.act? now
  | .pickUp response => t.pickUp? response
  | .wait => t.wait?

theorem follow?_session {cue : Session.Cue} {s : Session} (admits : t.admits cue = true)
    (follows : t.session.follow? cue = some s) :
    t.follow? (.session cue) = some { t with session := s } := by
  rw [follow?, if_pos admits, follows, Option.map_some]

/-- The task after a run, if it can follow all its cues. -/
def run? (t : Task) : List Cue → Option Task
  | [] => some t
  | cue :: cues => (t.follow? cue).bind fun u => u.run? cues

theorem run?_cons {cue : Cue} (first : t.follow? cue = some u) (cues : List Cue) :
    t.run? (cue :: cues) = u.run? cues := by
  rw [run?, first, Option.bind_some]

theorem run?_append {first : List Cue} (h : t.run? first = some u) (rest : List Cue) :
    t.run? (first ++ rest) = u.run? rest := by
  induction first generalizing t with
  | nil =>
      cases h
      rfl
  | cons cue first ih =>
      obtain ⟨v, follows, h⟩ := Option.bind_eq_some_iff.mp h
      rw [List.cons_append, run?_cons follows, ih h]

/-- What every cue preserves, every run preserves. -/
theorem run?_preserves {P : Task → Prop}
    (step : ∀ {t u : Task} {cue : Cue}, t.follow? cue = some u → P t → P u) {cues : List Cue}
    (run : t.run? cues = some u) (ht : P t) : P u := by
  induction cues generalizing t with
  | nil =>
      cases run
      exact ht
  | cons cue cues ih =>
      obtain ⟨v, first, rest⟩ := Option.bind_eq_some_iff.mp run
      exact ih rest (step first ht)

/-- Everything that a task does. -/
inductive Step (t : Task) : Cue → Task → Prop where
  /-- Its session follows a cue. -/
  | session {cue : Session.Cue} {s : Session} (admits : t.admits cue = true)
      (follows : t.session.follow? cue = some s) : Step t (.session cue) { t with session := s }
  /-- It sees that the signal has not fired. -/
  | look {now : Nat} (away : t.view = .away) (running : t.session.signal.isStopped = false)
      (point : Session.Leaves t.session.phase) : Step t (.look now) { t with view := .clear }
  /-- It begins a search. -/
  | ask {now wake : Nat} (clear : t.view = .clear) (phase : t.session.phase = .pausing wake) :
      Step t (.act now) { t with session := t.session.ask now }
  /-- It hands a change over. -/
  | handOver {now : Nat} {b : Bug} {rest : List Bug} {last : Option Instant}
      {next : ResourceVersion} {s : Session} (clear : t.view = .clear)
      (phase : t.session.phase = .delivering (b :: rest) last next)
      (handed : t.session.handOver? now b rest next = some s) :
      Step t (.act now) { session := s, view := .away }
  /-- It goes by the answer that it picked up. -/
  | settle {now : Nat} {response : Except TransportFault SearchResponse}
      (holds : t.view = .holding response) :
      Step t (.act now) { session := t.session.pickUp now response, view := .away }
  /-- It picks an answer up. -/
  | pickUp {response : Except TransportFault SearchResponse} (clear : t.view = .clear)
      (searching : t.session.phase = .searching) :
      Step t (.pickUp response) { t with view := .holding response }
  /-- It waits for an answer or for room. -/
  | wait (clear : t.view = .clear)
      (lacks : t.session.phase = .searching ∨ t.session.hasRoom = false) :
      Step t .wait { t with view := .away }

theorem leaves_of_heeds {s : Session} (heeds : s.heeds now = true) : Session.Leaves s.phase := by
  rw [Session.heeds] at heeds
  generalize s.phase = phase at heeds
  split at heeds
  · exact .pausing _
  · exact .searching
  · exact .delivering (of_decide_eq_true heeds)
  all_goals cases heeds

theorem step_of_act (h : t.act? now = some u) : Step t (.act now) u := by
  unfold act? at h
  split at h
  · cases h
  · rename_i clear
    split at h
    · rename_i wake phase
      cases h
      exact .ask clear phase
    · rename_i b rest last next phase
      obtain ⟨s, handed, rfl⟩ := Option.map_eq_some_iff.mp h
      exact .handOver clear phase handed
    all_goals cases h
  · rename_i response holds
    cases h
    exact .settle holds

theorem step_of_wait (h : t.wait? = some u) : Step t .wait u := by
  unfold wait? at h
  split at h
  · rename_i clear
    split at h
    · rename_i phase
      cases h
      exact .wait clear (.inl phase)
    · split at h
      · rename_i full
        cases h
        simp only [Bool.and_eq_true, Bool.not_eq_true'] at full
        exact .wait clear (.inr full.2)
      · cases h
    all_goals cases h
  all_goals cases h

theorem step_of_follow {cue : Cue} (h : t.follow? cue = some u) : Step t cue u := by
  cases cue with
  | session cue =>
      rw [follow?] at h
      split at h
      · rename_i admits
        obtain ⟨s, follows, rfl⟩ := Option.map_eq_some_iff.mp h
        exact .session admits follows
      · cases h
  | look now =>
      simp only [follow?, look?] at h
      split at h
      · rename_i away
        split at h
        · rename_i seen
          cases h
          simp only [Bool.and_eq_true, Bool.not_eq_true'] at seen
          exact .look away seen.2 (leaves_of_heeds seen.1)
        · cases h
      all_goals cases h
  | act now => exact step_of_act h
  | pickUp response =>
      simp only [follow?, pickUp?] at h
      split at h
      · rename_i clear
        split at h
        · rename_i searching
          cases h
          exact .pickUp clear (of_decide_eq_true searching)
        · cases h
      all_goals cases h
  | wait => exact step_of_wait h

/-! ## What a task is bound to -/

/-- The session does all that it is bound to, and stands where the task saw it. -/
structure Sound (t : Task) : Prop where
  lawful : t.session.Lawful
  fits : t.view.Fits t.session.phase

theorem sound_start (now : Nat) (present : Instant) (plan : WatchPlan) :
    (start now present plan).Sound :=
  ⟨Session.lawful_start now present plan, trivial⟩

/-- A cue that the session follows while the task is about to act comes from outside. -/
theorem outside_of_admits {cue : Session.Cue} (admits : t.admits cue = true)
    (looks : t.view ≠ .away) : cue.isOutside = true := by
  cases cue with
  | proceed now => exact absurd (View.isAway_iff.mp admits) looks
  | answer => cases admits
  | expire | take | stop | close | drop => rfl

theorem Sound.follow {cue : Cue} (sound : t.Sound) (h : t.follow? cue = some u) : u.Sound := by
  have lawful := sound.lawful
  have fits := sound.fits
  cases step_of_follow h with
  | session admits follows =>
      refine ⟨lawful.follow follows, ?_⟩
      by_cases away : t.view = .away
      · rw [away]
        trivial
      · rw [Session.phase_of_outside (outside_of_admits admits away) follows]
        exact fits
  | look _ _ point => exact ⟨lawful, point⟩
  | @ask now wake clear phase =>
      refine ⟨lawful.ask phase now, ?_⟩
      rw [clear]
      exact .searching
  | handOver _ phase handed => exact ⟨lawful.handOver phase handed, trivial⟩
  | @settle now response holds =>
      rw [holds] at fits
      exact ⟨lawful.picks fits (t.session.picks_pickUp now response), trivial⟩
  | pickUp _ searching => exact ⟨lawful, searching⟩
  | wait => exact ⟨lawful, trivial⟩

/-- **The session of a task does all that it is bound to, in every run.** -/
theorem sound_of_run {present : Instant} {plan : WatchPlan} {cues : List Cue}
    (run : (start now present plan).run? cues = some t) : t.Sound :=
  run?_preserves (fun h sound => sound.follow h) run (sound_start now present plan)

theorem plan_follow {cue : Cue} (h : t.follow? cue = some u) : u.session.plan = t.session.plan := by
  cases step_of_follow h with
  | session _ follows => exact Session.plan_follow follows
  | handOver _ _ handed =>
      rcases Session.handOver_cases handed with ⟨_, rfl⟩ | ⟨_, _, rfl⟩
      · exact t.session.plan_fire _ .finished
      · rfl
  | settle => exact (t.session.picks_pickUp _ _).plan
  | look | ask | pickUp | wait => rfl

theorem plan_of_run {cues : List Cue} (run : t.run? cues = some u) :
    u.session.plan = t.session.plan :=
  run?_preserves (P := fun v => v.session.plan = t.session.plan)
    (fun h same => (plan_follow h).trans same) run rfl

/-! ## Faults that were picked up -/

/-- The fault that a task picks up at a cue. -/
def Cue.fault? : Cue → Option TransportFault
  | .pickUp response => (Note.answered response).fault?
  | .session _ | .look _ | .act _ | .wait => none

/-- The faults that a task picks up in a run, first one first. -/
def failures (cues : List Cue) : List TransportFault := cues.filterMap Cue.fault?

/-- The faults that a task has picked up, also the one by which it has not gone yet. -/
def faults (t : Task) : List TransportFault := t.session.faults ++ t.view.fault?.toList

theorem faults_follow {cue : Cue} (h : t.follow? cue = some u) :
    u.faults = t.faults ++ cue.fault?.toList := by
  have kept : u.faults = t.faults → cue.fault? = none →
      u.faults = t.faults ++ cue.fault?.toList := by
    intro same silent
    rw [same, silent, Option.toList_none, List.append_nil]
  cases step_of_follow h with
  | @session cue s admits follows =>
      have deaf : t.session.fails? cue = none := by
        cases cue with
        | answer => cases admits
        | expire | proceed | take | stop | close | drop => rfl
      have same : s.faults = t.session.faults := by
        rw [Session.faults_follow follows, deaf, Option.toList_none, List.append_nil]
      refine kept ?_ rfl
      rw [faults, faults, same]
  | look away => exact kept (by simp [faults, View.fault?, away]) rfl
  | ask => exact kept (by rw [faults, faults, Session.faults_ask]) rfl
  | handOver clear _ handed =>
      exact kept (by simp [faults, View.fault?, clear, Session.faults_handOver handed]) rfl
  | @settle now response holds =>
      have heard := (t.session.picks_pickUp now response).faults
      exact kept (by simp [faults, View.fault?, holds, heard]) rfl
  | pickUp clear => simp [faults, Cue.fault?, View.fault?, clear]
  | wait clear => exact kept (by simp [faults, View.fault?, clear]) rfl

theorem faults_of_run {cues : List Cue} (run : t.run? cues = some u) :
    u.faults = t.faults ++ failures cues := by
  induction cues generalizing t with
  | nil =>
      cases run
      exact (List.append_nil _).symm
  | cons cue cues ih =>
      obtain ⟨v, first, rest⟩ := Option.bind_eq_some_iff.mp run
      rw [ih rest, faults_follow first, List.append_assoc, failures, failures]
      cases fault : cue.fault? <;> simp [fault]

/-! ## The signal -/

theorem expired_follow {cue : Cue} (h : t.follow? cue = some u) :
    u.session.signal.reason = some .expired ↔
      t.session.signal.reason = some .expired ∨ ∃ time, cue = .session (.expire time) := by
  cases step_of_follow h with
  | session _ follows =>
      rw [Session.expired_follow follows]
      simp
  | handOver _ _ handed =>
      refine Iff.trans ?_ (or_iff_left (by simp)).symm
      rcases Session.signal_of_handOver handed with same | fired
      · rw [same]
      · rw [fired]
        exact Session.reason_fire_eq_iff (by decide)
  | settle =>
      refine Iff.trans ?_ (or_iff_left (by simp)).symm
      exact (t.session.picks_pickUp _ _).reason_iff (by decide)
  | look | ask | pickUp | wait => exact (or_iff_left (by simp)).symm

/-- The lifetime stopped the session exactly if that is a cue of the run. -/
theorem expired_of_run {cues : List Cue} (run : t.run? cues = some u) :
    u.session.signal.reason = some .expired ↔
      t.session.signal.reason = some .expired ∨ ∃ time, .session (.expire time) ∈ cues := by
  induction cues generalizing t with
  | nil =>
      cases run
      simp
  | cons cue cues ih =>
      obtain ⟨v, first, rest⟩ := Option.bind_eq_some_iff.mp run
      rw [ih rest, expired_follow first, or_assoc]
      simp [eq_comm, exists_or]

/-- Whatever a task does after the signal has fired, the reason stays. -/
theorem signal_follow (stopped : t.session.signal.isStopped = true) {cue : Cue}
    (h : t.follow? cue = some u) : u.session.signal = t.session.signal := by
  cases step_of_follow h with
  | session _ follows => exact Session.signal_follow stopped follows
  | handOver _ _ handed =>
      rcases Session.signal_of_handOver handed with same | fired
      · exact same
      · rw [fired, Session.fire_of_stopped stopped]
  | settle => exact (t.session.picks_pickUp _ _).signal_of_stopped stopped
  | look | ask | pickUp | wait => rfl

theorem signal_of_run (stopped : t.session.signal.isStopped = true) {cues : List Cue}
    (run : t.run? cues = some u) : u.session.signal = t.session.signal :=
  run?_preserves (P := fun v => v.session.signal = t.session.signal)
    (fun h same => (signal_follow (by rw [same, stopped]) h).trans same) run rfl

def Cue.isStop : Cue → Bool
  | .session cue => cue.isStop
  | .look _ | .act _ | .pickUp _ | .wait => false

/-- **Once the signal has fired, for whatever reason, no further stop changes anything.** -/
theorem run?_without_stops (stopped : t.session.signal.isStopped = true) (cues : List Cue) :
    t.run? cues = t.run? (cues.filter fun cue => !cue.isStop) := by
  induction cues generalizing t with
  | nil => rfl
  | cons cue cues ih =>
      cases asks : cue.isStop with
      | true =>
          obtain ⟨time, rfl⟩ : ∃ time, cue = .session (.stop time) := by
            cases cue with
            | session cue => cases cue <;> simp [Cue.isStop, Session.Cue.isStop] at asks ⊢
            | look | act | pickUp | wait => cases asks
          have same : t.follow? (.session (.stop time)) = some t :=
            follow?_session rfl (congrArg some (Session.fire_of_stopped stopped time .requested))
          rw [run?_cons same, ih stopped, List.filter_cons_of_neg (by simp [asks])]
      | false =>
          rw [List.filter_cons_of_pos (by simp [asks]), run?, run?]
          cases first : t.follow? cue with
          | none => rfl
          | some u => exact ih (by rw [signal_follow stopped first, stopped])

/-! ## Runs of the session alone -/

/-- **Once the signal has fired and the task is between two of its looks, only its session goes
on.** -/
theorem session_of_stopped (stopped : t.session.signal.isStopped = true) (away : t.view = .away)
    {cues : List Cue} (run : t.run? cues = some u) :
    ∃ steps, cues = steps.map .session ∧ t.session.run? steps = some u.session ∧
      u.view = .away := by
  induction cues generalizing t with
  | nil =>
      cases run
      exact ⟨[], rfl, rfl, away⟩
  | cons cue cues ih =>
      obtain ⟨v, first, rest⟩ := Option.bind_eq_some_iff.mp run
      have still : v.session.signal.isStopped = true := by rw [signal_follow stopped first, stopped]
      cases step_of_follow first with
      | @session cue s _ follows =>
          obtain ⟨steps, rfl, whole, left⟩ := ih still away rest
          exact ⟨cue :: steps, rfl, (Session.run?_cons follows steps).trans whole, left⟩
      | look _ running => cases running.symm.trans stopped
      | ask clear | handOver clear | pickUp clear | wait clear => cases away.symm.trans clear
      | settle holds => cases away.symm.trans holds

/-- Nothing is picked up once the signal has fired and the task is between two of its looks. -/
theorem failures_of_stopped (stopped : t.session.signal.isStopped = true) (away : t.view = .away)
    {cues : List Cue} (run : t.run? cues = some u) : failures cues = [] := by
  obtain ⟨steps, rfl, _⟩ := session_of_stopped stopped away run
  rw [failures, List.filterMap_map]
  exact List.filterMap_eq_nil_iff.mpr fun _ _ => rfl

/-! ## Handing a change over -/

/-- A task that has looked at the signal for a change can hand it over, or its consumer takes an
event and makes room. -/
theorem exists_act_or_take {b : Bug} {rest : List Bug} {last : Option Instant}
    {next : ResourceVersion} (clear : t.view = .clear)
    (phase : t.session.phase = .delivering (b :: rest) last next)
    (room : 0 < t.session.plan.capacity) (now : Nat) :
    (∃ u, t.follow? (.act now) = some u) ∨ ∃ u, t.follow? (.session (.take now)) = some u := by
  cases waiting : t.session.queue with
  | nil =>
      have vacant := Session.hasRoom_of_empty room waiting
      obtain ⟨s, handed⟩ := Session.exists_handOver vacant now b rest next
      exact .inl ⟨_, by simp only [follow?, act?, clear, phase, handed]; rfl⟩
  | cons event queue =>
      have taken : t.session.follow? (.take now) =
          some ({ t.session with queue := queue }.note now (.taken event)) := by
        rw [Session.follow?, Session.take?, waiting]
        rfl
      exact .inr ⟨_, follow?_session rfl taken⟩

/-! ## Looking and acting at once -/

theorem follow?_look {s : Session} (heeds : s.heeds now = true)
    (running : s.signal.isStopped = false) :
    (Task.mk s .away).follow? (.look now) = some ⟨s, .clear⟩ := by
  simp [follow?, look?, heeds, running]

/-- **A look and the act after it are what the session does at once**, if nothing happens in
between. -/
theorem run?_looked {s : Session} (heeds : s.heeds now = true)
    (running : s.signal.isStopped = false) (unasked : s.phase ≠ .searching) :
    ((Task.mk s .away).run? [.look now, .act now]).map Task.session = s.follow? (.proceed now) := by
  rw [run?_cons (follow?_look heeds running), run?, follow?, act?]
  cases phase : s.phase with
  | pausing wake =>
      have due : wake ≤ now := by simpa [Session.heeds, phase] using heeds
      simp [run?, Session.follow?, Session.proceed?, phase, running, due]
  | searching => exact absurd phase unasked
  | delivering rest last next =>
      cases rest with
      | nil => simp [Session.heeds, phase] at heeds
      | cons b rest =>
          simp only [Session.follow?, Session.proceed?, Session.deliver?, phase, running,
            Bool.false_eq_true, and_false, if_false]
          cases s.handOver? now b rest next <;> rfl
  | closing | ended => simp [Session.heeds, phase] at heeds

/-- A search answer that a session looks at is picked up by its task. -/
theorem run?_picked {s : Session} (phase : s.phase = .searching)
    (running : s.signal.isStopped = false) (now : Nat)
    (response : Except TransportFault SearchResponse) :
    (Task.mk s .away).run? [.look now, .pickUp response, .act now] =
      some ⟨s.pickUp now response, .away⟩ := by
  have heeds : s.heeds now = true := by rw [Session.heeds, phase]
  rw [run?_cons (follow?_look heeds running)]
  simp only [run?, follow?, pickUp?, Session.isSearching, phase, decide_true, if_true,
    Option.bind_some, act?]

/-- A run in which an answer is picked up and accepted, with its batch. -/
theorem run?_accepted {s : Session} {first : List Cue} (h : t.run? first = some ⟨s, .away⟩)
    (now : Nat) {found : SearchResponse} {next : ResourceVersion} {batch : List Bug}
    (phase : s.phase = .searching) (running : s.signal.isStopped = false)
    (latest : found.latestChange? = some next) (fresh : next.isAfter s.watermark = true)
    (hbatch : s.plan.batch s.watermark found = batch) (rest : List Cue) :
    t.run? (first ++ ([.look now, .pickUp (.ok found), .act now] ++ rest)) =
      (Task.mk { s.note now (.answered (.ok found)) with phase := .delivering batch none next }
        .away).run? rest := by
  subst hbatch
  rw [run?_append h, run?_append (run?_picked phase running now (.ok found)),
    Session.pickUp_accepted s now latest fresh]

theorem exists_run_of_follow {s s' : Session} {cue : Session.Cue} (h : s.follow? cue = some s') :
    ∃ steps, (Task.mk s .away).run? steps = some ⟨s', .away⟩ ∧
      failures steps = (s.fails? cue).toList := by
  have once : cue.isOutside = true ∨ (∃ now, cue = .proceed now) →
      (Task.mk s .away).run? [.session cue] = some ⟨s', .away⟩ := by
    intro plain
    have admits : (Task.mk s .away).admits cue = true := by
      cases cue <;> simp_all [admits, View.isAway, Session.Cue.isOutside]
    exact run?_cons (follow?_session admits h) []
  cases cue with
  | answer now response =>
      cases h
      by_cases phase : s.phase = .searching
      · cases stopped : s.signal.isStopped with
        | false =>
            refine ⟨[.look now, .pickUp response, .act now], ?_, ?_⟩
            · rw [run?_picked phase stopped, Session.answer_of_running phase stopped]
            · rw [Session.fails?_of_running phase stopped]
              cases response <;> rfl
        | true =>
            refine ⟨[.session (.proceed now)], ?_, ?_⟩
            · simp [run?, follow?, admits, View.isAway, Session.follow?, Session.proceed?,
                Session.answer, phase, stopped]
            · rw [Session.fails?_of_deaf (.inr stopped)]
              rfl
      · refine ⟨[], ?_, ?_⟩
        · rw [run?, Session.answer, if_pos phase]
        · rw [Session.fails?_of_deaf (.inl (decide_eq_false phase))]
          rfl
  | proceed now => exact ⟨_, once (.inr ⟨now, rfl⟩), rfl⟩
  | expire | take | stop | close | drop => exact ⟨_, once (.inl rfl), rfl⟩

/-- **What a session does that looks and acts at once, its task may do as well**, with the same
failures. -/
theorem exists_run_of_session {s s' : Session} {cues : List Session.Cue}
    (run : s.run? cues = some s') :
    ∃ steps, (Task.mk s .away).run? steps = some ⟨s', .away⟩ ∧
      failures steps = s.failures cues := by
  induction cues generalizing s with
  | nil =>
      cases run
      exact ⟨[], rfl, rfl⟩
  | cons cue cues ih =>
      obtain ⟨v, first, rest⟩ := Option.bind_eq_some_iff.mp run
      obtain ⟨steps, done, faults⟩ := exists_run_of_follow first
      obtain ⟨more, others, later⟩ := ih rest
      refine ⟨steps ++ more, (run?_append done more).trans others, ?_⟩
      rw [failures, List.filterMap_append, ← failures, ← failures, faults, later]
      exact (Session.along_cons first cues).symm

/-- A session that was opened at the epoch, during its first search. -/
theorem run?_firstSearch :
    (start 0 .epoch (.sample 6)).run? [.session (.proceed 7000)] =
      some ⟨.firstSearch (.sample 6) 7000, .away⟩ :=
  run?_cons (follow?_session rfl Session.firstSearch_reached) []

end Task

end BugFeed
