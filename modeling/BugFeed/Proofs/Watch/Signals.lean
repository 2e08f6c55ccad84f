import Mathlib.Data.List.Basic
import Mathlib.Data.Option.Basic
import BugFeed.Watch.StopSignal

/-!
# Programs with stop signals

Any number of tasks may hold handles of one signal, make more of them, fire it for different reasons
and wait for it, for ever or for a bounded time. A program is the list of what all of them do, in
the order in which it happens, with the time that passes in between. Handles of one signal have the
same place on the switchboard.

What a program does to a signal is decided by the first trigger of the signal alone: it alone is
told that it was the first, all handles show its reason from then on, and it ends the waits that are
still going on. A wait that has come to its end keeps its result (`waiter_of_settled`), and one that
goes on ends with the next trigger or when its time has run out (`waiter_of_waiting`).
-/

namespace BugFeed

set_option autoImplicit false

namespace Switchboard

/-! ## Programs -/

/-- One step of a program. -/
inductive Step where
  /-- Someone makes a signal. -/
  | new
  /-- Someone makes another handle of the signal of a handle. -/
  | clone (handle : Nat)
  /-- Someone fires the signal of a handle. -/
  | trigger (handle : Nat) (reason : StopReason)
  /-- Someone begins to wait for the signal of a handle, for ever or for some milliseconds. -/
  | wait (handle : Nat) (ms : Option Nat)
  /-- Time passes. -/
  | pass (ms : Nat)

/-- The handle that a step uses. -/
def Step.handle? : Step → Option Nat
  | .clone handle | .trigger handle _ | .wait handle _ => some handle
  | .new | .pass _ => none

def perform (b : Switchboard) : Step → Switchboard
  | .new => b.new.1
  | .clone handle => (b.clone handle).1
  | .trigger handle reason => (b.trigger handle reason).1
  | .wait handle ms => (b.wait handle ms).1
  | .pass ms => b.pass ms

/-- The switchboard after a program, if each step uses a handle that is there. -/
def run? (b : Switchboard) : List Step → Option Switchboard
  | [] => some b
  | step :: steps =>
    if ∀ handle ∈ step.handle?, handle < b.handles.length then (b.perform step).run? steps else none

/-- A trigger: when it was, the place of its signal, the reason, and whether it was told that it was
the first. -/
structure Trigger where
  time : Nat
  place : Nat
  reason : StopReason
  first : Bool

def trigger? (b : Switchboard) : Step → Option Trigger
  | .trigger handle reason =>
    some ⟨b.now, b.place handle, reason, (b.trigger handle reason).2⟩
  | _ => none

/-- The triggers of the signal at a place in a program, first one first. -/
def triggersAt (place : Nat) (b : Switchboard) : List Step → List Trigger
  | [] => []
  | step :: steps =>
    ((b.trigger? step).filter fun t => t.place = place).toList ++
      (b.perform step).triggersAt place steps

variable {b c : Switchboard} {step : Step} {steps : List Step} {place handle n : Nat} {w : Waiter}

theorem run?_cons (run : b.run? (step :: steps) = some c) :
    (∀ handle ∈ step.handle?, handle < b.handles.length) ∧
      (b.perform step).run? steps = some c := by
  rw [run?] at run
  split at run
  · rename_i known
    exact ⟨known, run⟩
  · cases run

theorem run?_append {before after : List Step} (run : b.run? (before ++ after) = some c) :
    ∃ u, b.run? before = some u ∧ u.run? after = some c := by
  induction before generalizing b with
  | nil => exact ⟨b, rfl, run⟩
  | cons step before ih =>
      obtain ⟨known, rest⟩ := run?_cons run
      obtain ⟨u, first, second⟩ := ih rest
      exact ⟨u, by rw [run?, if_pos known, first], second⟩

/-- The triggers of a program are those of its parts. -/
theorem triggersAt_append {before after : List Step} (run : b.run? before = some c) :
    b.triggersAt place (before ++ after) =
      b.triggersAt place before ++ c.triggersAt place after := by
  induction before generalizing b with
  | nil =>
      cases run
      rfl
  | cons step before ih =>
      rw [List.cons_append, triggersAt, triggersAt, ih (run?_cons run).2, List.append_assoc]

/-- A step fires the signal at a place, or is none of the triggers of that signal. -/
theorem trigger_or_apart (b : Switchboard) (step : Step) (place : Nat) :
    (∃ handle reason, step = .trigger handle reason ∧ b.place handle = place) ∨
      (b.trigger? step).filter (fun t => t.place = place) = none := by
  cases step with
  | trigger handle reason =>
      by_cases same : b.place handle = place
      · exact .inl ⟨handle, reason, rfl, same⟩
      · exact .inr (by simp [trigger?, same])
  | new | clone | wait | pass => exact .inr rfl

theorem triggersAt_cons_of_apart
    (apart : (b.trigger? step).filter (fun t => t.place = place) = none) (steps : List Step) :
    b.triggersAt place (step :: steps) = (b.perform step).triggersAt place steps := by
  rw [triggersAt, apart]
  rfl

theorem triggersAt_cons_of_trigger {reason : StopReason} (same : b.place handle = place)
    (steps : List Step) :
    b.triggersAt place (.trigger handle reason :: steps) =
      ⟨b.now, place, reason, (b.trigger handle reason).2⟩ ::
        (b.perform (.trigger handle reason)).triggersAt place steps := by
  simp [triggersAt, trigger?, same, Option.filter]

/-! ## Waiters -/

@[simp] theorem place_heard (place : Nat) (w : Waiter) : (heard place w).place = w.place := by
  rw [heard]
  split <;> rfl

@[simp] theorem deadline_heard (place : Nat) (w : Waiter) :
    (heard place w).deadline = w.deadline := by
  rw [heard]
  split <;> rfl

@[simp] theorem place_atTime (now : Nat) (w : Waiter) : (atTime now w).place = w.place := by
  rw [atTime]
  split
  · split <;> rfl
  · rfl

@[simp] theorem deadline_atTime (now : Nat) (w : Waiter) :
    (atTime now w).deadline = w.deadline := by
  rw [atTime]
  split
  · split <;> rfl
  · rfl

/-- A wait goes on when a signal fires if it is for another signal. -/
theorem heard_waiting_iff :
    (heard place w).state = .waiting ↔ w.state = .waiting ∧ w.place ≠ place := by
  rw [heard]
  split <;> simp_all

/-- A wait goes on as long as there is time left. -/
theorem atTime_waiting_iff {now : Nat} :
    (atTime now w).state = .waiting ↔
      w.state = .waiting ∧ ∀ deadline ∈ w.deadline, now < deadline := by
  rw [atTime]
  split
  · split <;> simp_all
  · simp_all

theorem atTime_fired_iff {now : Nat} : (atTime now w).state = .fired ↔ w.state = .fired := by
  rw [atTime]
  split
  · split <;> simp_all
  · simp_all

@[simp] theorem place_newWaiter (b : Switchboard) (handle : Nat) (ms : Option Nat) :
    (b.newWaiter handle ms).place = b.place handle := place_atTime _ _

@[simp] theorem deadline_newWaiter (b : Switchboard) (handle : Nat) (ms : Option Nat) :
    (b.newWaiter handle ms).deadline = ms.map (b.now + ·) := deadline_atTime _ _

/-- A wait for a signal that has fired is over at once. -/
theorem newWaiter_fired_iff (ms : Option Nat) :
    (b.newWaiter handle ms).state = .fired ↔ (b.signal handle).isStopped = true := by
  rw [newWaiter, atTime_fired_iff]
  split <;> simp_all

theorem newWaiter_waiting_iff {ms : Option Nat} :
    (b.newWaiter handle ms).state = .waiting ↔
      (b.signal handle).isStopped = false ∧ ∀ deadline ∈ ms.map (b.now + ·), b.now < deadline := by
  rw [newWaiter, atTime_waiting_iff]
  split <;> simp_all

/-- A wait that is over keeps its result. -/
theorem heard_of_settled (settled : w.state ≠ .waiting) : heard place w = w := by
  simp [heard, settled]

theorem atTime_of_settled {now : Nat} (settled : w.state ≠ .waiting) : atTime now w = w := by
  simp [atTime, settled]

/-- What a step makes of a waiter. -/
def waiterAfter (b : Switchboard) (step : Step) (w : Waiter) : Waiter :=
  match step with
  | .trigger handle _ => heard (b.place handle) w
  | .pass ms => atTime (b.now + ms) w
  | .new | .clone _ | .wait _ _ => w

theorem waiter_perform (member : b.waiters[n]? = some w) (step : Step) :
    (b.perform step).waiters[n]? = some (b.waiterAfter step w) := by
  cases step with
  | trigger | pass => simp [perform, trigger, pass, waiterAfter, member]
  | new | clone => exact member
  | wait handle ms =>
      obtain ⟨inside, _⟩ := List.getElem?_eq_some_iff.mp member
      simp [perform, wait, waiterAfter, List.getElem?_append_left inside, member]

theorem waiterAfter_of_settled (settled : w.state ≠ .waiting) (b : Switchboard) (step : Step) :
    b.waiterAfter step w = w := by
  cases step with
  | trigger => exact heard_of_settled settled
  | pass => exact atTime_of_settled settled
  | new | clone | wait => rfl

/-! ## What holds of every switchboard -/

/-- Handles and waiters know signals that are there, and whoever still waits does so for a signal
that has not fired, and has time left. -/
structure Sound (b : Switchboard) : Prop where
  handles : ∀ place ∈ b.handles, place < b.signals.length
  waiters : ∀ w ∈ b.waiters, w.place < b.signals.length
  pending : ∀ w ∈ b.waiters, w.state = .waiting →
    (b.signalAt w.place).isStopped = false ∧ ∀ deadline ∈ w.deadline, b.now < deadline

theorem sound_single : single.Sound where
  handles := by simp [single]
  waiters := by simp [single]
  pending := by simp [single]

theorem place_eq (known : handle < b.handles.length) : b.place handle = b.handles[handle] := by
  simp [place, known]

theorem Sound.place_lt (sound : b.Sound) (known : handle < b.handles.length) :
    b.place handle < b.signals.length := by
  rw [place_eq known]
  exact sound.handles _ (List.getElem_mem known)

/-- A new signal has not fired, and neither has one that is not there. -/
theorem signalAt_new (b : Switchboard) (place : Nat) :
    b.new.1.signalAt place = b.signalAt place := by
  simp only [signalAt, new]
  rcases Nat.lt_trichotomy place b.signals.length with inside | same | outside
  · rw [List.getElem?_append_left inside]
  · simp [same]
  · have beyond : b.signals.length ≤ place := Nat.le_of_lt outside
    rw [List.getElem?_append_right beyond, List.getElem?_eq_none beyond]
    simp [Nat.sub_ne_zero_of_lt outside]

theorem signalAt_trigger (inside : b.place handle < b.signals.length) (reason : StopReason)
    (place : Nat) :
    (b.trigger handle reason).1.signalAt place =
      if b.place handle = place then (b.signal handle).fire reason else b.signalAt place := by
  simp only [signalAt, trigger, StopSignal.fire]
  by_cases same : b.place handle = place
  · simp [same, same ▸ inside]
  · simp [same]

theorem signalAt_perform_of_apart (sound : b.Sound)
    (known : ∀ handle ∈ step.handle?, handle < b.handles.length)
    (apart : (b.trigger? step).filter (fun t => t.place = place) = none) :
    (b.perform step).signalAt place = b.signalAt place := by
  cases step with
  | new => exact b.signalAt_new place
  | trigger handle reason =>
      have other : b.place handle ≠ place := by
        intro same
        simp [trigger?, same] at apart
      rw [perform, signalAt_trigger (sound.place_lt (known handle rfl)), if_neg other]
  | clone | wait | pass => rfl

/-- A step keeps what holds of every switchboard. -/
theorem Sound.perform (sound : b.Sound)
    (known : ∀ handle ∈ step.handle?, handle < b.handles.length) : (b.perform step).Sound := by
  cases step with
  | new =>
      refine ⟨?_, ?_, ?_⟩
      · intro place member
        rcases List.mem_append.mp member with old | added
        · exact Nat.lt_of_lt_of_le (sound.handles place old) (by simp [Switchboard.perform, new])
        · simp_all [Switchboard.perform, new]
      · intro w member
        exact Nat.lt_of_lt_of_le (sound.waiters w member) (by simp [Switchboard.perform, new])
      · intro w member waits
        rw [Switchboard.perform, signalAt_new]
        exact sound.pending w member waits
  | clone handle =>
      refine ⟨?_, sound.waiters, sound.pending⟩
      intro place member
      rcases List.mem_append.mp member with old | added
      · exact sound.handles place old
      · rw [List.mem_singleton.mp added]
        exact sound.place_lt (known handle rfl)
  | trigger handle reason =>
      have inside := sound.place_lt (known handle rfl)
      refine ⟨?_, ?_, ?_⟩
      · intro place member
        simpa [Switchboard.perform, trigger] using sound.handles place member
      · intro w member
        obtain ⟨v, old, rfl⟩ := List.mem_map.mp member
        rw [place_heard]
        simpa [Switchboard.perform, trigger] using sound.waiters v old
      · intro w member waits
        obtain ⟨v, old, rfl⟩ := List.mem_map.mp member
        obtain ⟨waits, apart⟩ := heard_waiting_iff.mp waits
        rw [Switchboard.perform, signalAt_trigger inside, place_heard, deadline_heard,
          if_neg apart.symm]
        exact sound.pending v old waits
  | wait handle ms =>
      refine ⟨sound.handles, ?_, ?_⟩
      · intro w member
        rcases List.mem_append.mp member with old | added
        · exact sound.waiters w old
        · rw [List.mem_singleton.mp added, place_newWaiter]
          exact sound.place_lt (known handle rfl)
      · intro w member waits
        rcases List.mem_append.mp member with old | added
        · exact sound.pending w old waits
        · rw [List.mem_singleton.mp added] at waits ⊢
          rw [place_newWaiter, deadline_newWaiter]
          exact newWaiter_waiting_iff.mp waits
  | pass ms =>
      refine ⟨sound.handles, ?_, ?_⟩
      · intro w member
        obtain ⟨v, old, rfl⟩ := List.mem_map.mp member
        rw [place_atTime]
        exact sound.waiters v old
      · intro w member waits
        obtain ⟨v, old, rfl⟩ := List.mem_map.mp member
        obtain ⟨waits, timely⟩ := atTime_waiting_iff.mp waits
        rw [place_atTime, deadline_atTime]
        exact ⟨(sound.pending v old waits).1, timely⟩

theorem sound_of_run (sound : b.Sound) (run : b.run? steps = some c) : c.Sound := by
  induction steps generalizing b with
  | nil =>
      cases run
      exact sound
  | cons step steps ih =>
      obtain ⟨known, rest⟩ := run?_cons run
      exact ih (sound.perform known) rest

/-! ## What a program does to a signal -/

theorem now_le_perform (b : Switchboard) (step : Step) : b.now ≤ (b.perform step).now := by
  cases step with
  | pass ms => exact Nat.le_add_right _ _
  | new | clone | trigger | wait => exact Nat.le_refl _

theorem now_le_of_run (run : b.run? steps = some c) : b.now ≤ c.now := by
  induction steps generalizing b with
  | nil =>
      cases run
      exact Nat.le_refl _
  | cons step steps ih => exact Nat.le_trans (b.now_le_perform step) (ih (run?_cons run).2)

/-- A program triggers a signal at no time before its beginning. -/
theorem le_time_of_mem (steps : List Step) {t : Trigger}
    (member : t ∈ b.triggersAt place steps) : b.now ≤ t.time := by
  induction steps generalizing b with
  | nil => cases member
  | cons step steps ih =>
      rcases b.trigger_or_apart step place with ⟨handle, reason, rfl, same⟩ | apart
      · rw [triggersAt_cons_of_trigger same] at member
        rcases List.mem_cons.mp member with rfl | later
        · exact Nat.le_refl _
        · exact Nat.le_trans (b.now_le_perform _) (ih later)
      · rw [triggersAt_cons_of_apart apart] at member
        exact Nat.le_trans (b.now_le_perform step) (ih member)

theorem isStopped_iff_reason {s : StopSignal} : s.isStopped = true ↔ s.reason ≠ none := by
  simp [StopSignal.isStopped, Option.isSome_iff_ne_none]

theorem reason_fire (s : StopSignal) (reason : StopReason) :
    (s.fire reason).reason = some (s.reason.getD reason) := by
  rw [StopSignal.fire, StopSignal.trigger]
  cases known : s.reason <;> simp [known]

theorem isStopped_fire (s : StopSignal) (reason : StopReason) :
    (s.fire reason).isStopped = true := by
  simp [isStopped_iff_reason, reason_fire]

/-- Whoever fires a signal is told that it was the first if it had not fired. -/
theorem trigger_first_iff (b : Switchboard) (handle : Nat) (reason : StopReason) :
    (b.trigger handle reason).2 = true ↔ (b.signal handle).isStopped = false := by
  simp only [trigger, StopSignal.trigger, StopSignal.isStopped, StopSignal.cancelled_eq_isSome]
  cases (b.signal handle).reason <;> simp

theorem signalAt_perform_trigger (sound : b.Sound) {reason : StopReason}
    (known : ∀ handle' ∈ (Step.trigger handle reason).handle?, handle' < b.handles.length) :
    (b.perform (.trigger handle reason)).signalAt (b.place handle) =
      (b.signal handle).fire reason := by
  rw [perform, signalAt_trigger (sound.place_lt (known handle rfl)), if_pos rfl]

/-- **The first trigger of a signal that has not fired gives the reason that the signal keeps.** -/
theorem reason_of_run (sound : b.Sound) (run : b.run? steps = some c) (place : Nat) :
    (c.signalAt place).reason =
      (b.signalAt place).reason.or ((b.triggersAt place steps).head?.map Trigger.reason) := by
  induction steps generalizing b with
  | nil =>
      cases run
      simp [triggersAt]
  | cons step steps ih =>
      obtain ⟨known, rest⟩ := run?_cons run
      rw [ih (sound.perform known) rest]
      rcases b.trigger_or_apart step place with ⟨handle, reason, rfl, rfl⟩ | apart
      · rw [triggersAt_cons_of_trigger rfl, signalAt_perform_trigger sound known, reason_fire,
          ← signal]
        cases (b.signal handle).reason <;> simp
      · rw [triggersAt_cons_of_apart apart, signalAt_perform_of_apart sound known apart]

theorem isStopped_of_run (sound : b.Sound) (run : b.run? steps = some c)
    (stopped : (b.signalAt place).isStopped = true) : (c.signalAt place).isStopped = true := by
  rw [isStopped_iff_reason] at stopped ⊢
  rw [reason_of_run sound run]
  simp [stopped]

/-- **Only the first trigger of a signal that has not fired is told that it was the first.** -/
theorem first_iff_of_run (sound : b.Sound) (run : b.run? steps = some c) {t : Trigger}
    (nth : (b.triggersAt place steps)[n]? = some t) :
    t.first = true ↔ n = 0 ∧ (b.signalAt place).isStopped = false := by
  induction steps generalizing b n with
  | nil => simp [triggersAt] at nth
  | cons step steps ih =>
      obtain ⟨known, rest⟩ := run?_cons run
      rcases b.trigger_or_apart step place with ⟨handle, reason, rfl, rfl⟩ | apart
      · rw [triggersAt_cons_of_trigger rfl] at nth
        cases n with
        | zero =>
            cases nth
            simpa [signal] using b.trigger_first_iff handle reason
        | succ n =>
            rw [List.getElem?_cons_succ] at nth
            rw [ih (sound.perform known) rest nth, signalAt_perform_trigger sound known,
              isStopped_fire]
            simp
      · rw [triggersAt_cons_of_apart apart] at nth
        rw [ih (sound.perform known) rest nth, signalAt_perform_of_apart sound known apart]

/-! ## What becomes of a wait -/

theorem waiter_of_settled (settled : w.state ≠ .waiting) (run : b.run? steps = some c)
    (member : b.waiters[n]? = some w) : c.waiters[n]? = some w := by
  induction steps generalizing b with
  | nil =>
      cases run
      exact member
  | cons step steps ih =>
      refine ih (run?_cons run).2 ?_
      rw [waiter_perform member step, b.waiterAfter_of_settled settled]

/-- A step that does not fire the signal leaves a wait as it is, or finds that its time has run
out. -/
theorem waiterAfter_of_apart (waits : w.state = .waiting)
    (apart : (b.trigger? step).filter (fun t => t.place = w.place) = none) :
    b.waiterAfter step w = w ∨
      b.waiterAfter step w = { w with state := .late } ∧
        ∃ deadline ∈ w.deadline, deadline ≤ (b.perform step).now := by
  cases step with
  | trigger handle reason =>
      have other : w.place ≠ b.place handle := by
        intro same
        simp [trigger?, same] at apart
      exact .inl (by simp [waiterAfter, heard, other])
  | pass ms =>
      cases bound : w.deadline with
      | none => exact .inl (by simp [waiterAfter, atTime, waits, bound])
      | some deadline =>
          by_cases spent : deadline ≤ b.now + ms
          · exact .inr ⟨by simp [waiterAfter, atTime, waits, bound, spent], deadline, rfl, spent⟩
          · exact .inl (by simp [waiterAfter, atTime, waits, bound, spent])
  | new | clone | wait => exact .inl rfl

/-- **A wait ends with the next trigger of its signal, if that comes before its time has run out.**
It goes on as long as there is none and there is time left. -/
theorem waiter_of_waiting (sound : b.Sound) (run : b.run? steps = some c)
    (member : b.waiters[n]? = some w) (waits : w.state = .waiting) :
    ∃ v, c.waiters[n]? = some v ∧ v.place = w.place ∧ v.deadline = w.deadline ∧
      (v.state = .fired ↔
        ∃ t ∈ (b.triggersAt w.place steps).head?, ∀ deadline ∈ w.deadline, t.time < deadline) ∧
      (v.state = .waiting ↔ (c.signalAt w.place).isStopped = false ∧
        ∀ deadline ∈ w.deadline, c.now < deadline) := by
  induction steps generalizing b with
  | nil =>
      cases run
      have pending := sound.pending w (List.mem_of_getElem? member) waits
      exact ⟨w, member, rfl, rfl, by simp [triggersAt, waits],
        iff_of_true waits pending⟩
  | cons step steps ih =>
      obtain ⟨known, rest⟩ := run?_cons run
      have sound' := sound.perform known
      have next := waiter_perform member step
      rcases b.trigger_or_apart step w.place with ⟨handle, reason, rfl, same⟩ | apart
      · have heard : b.waiterAfter (.trigger handle reason) w = { w with state := .fired } := by
          simp [waiterAfter, heard, waits, same]
        rw [heard] at next
        refine ⟨_, waiter_of_settled (by simp) rest next, rfl, rfl, ?_, ?_⟩
        · rw [triggersAt_cons_of_trigger same]
          have timely := (sound.pending w (List.mem_of_getElem? member) waits).2
          simpa using timely
        · have fired : (c.signalAt w.place).isStopped = true := by
            refine isStopped_of_run sound' rest ?_
            rw [← same, signalAt_perform_trigger sound known, isStopped_fire]
          simp [fired]
      · rw [triggersAt_cons_of_apart apart]
        rcases waiterAfter_of_apart waits apart with unchanged | ⟨late, deadline, bound, spent⟩
        · rw [unchanged] at next
          exact ih sound' rest next
        · rw [late] at next
          refine ⟨_, waiter_of_settled (by simp) rest next, rfl, rfl, ?_, ?_⟩
          · refine iff_of_false (by simp) ?_
            rintro ⟨t, first, timely⟩
            have begun := le_time_of_mem steps (List.mem_of_mem_head? first)
            exact absurd (timely deadline bound) (by omega)
          · refine iff_of_false (by simp) ?_
            rintro ⟨_, timely⟩
            have passed := now_le_of_run rest
            exact absurd (timely deadline bound) (by omega)

/-- What a wait has come to after some steps: it has ended with the signal if that had fired before
it, or is fired before its time has run out. -/
theorem waiter_of_wait (sound : b.Sound) {ms : Option Nat}
    (run : b.run? (.wait handle ms :: steps) = some c) :
    ∃ w, c.waiters[b.waiters.length]? = some w ∧
      (w.state = .fired ↔ (b.signal handle).isStopped = true ∨
        ∃ t ∈ (b.triggersAt (b.place handle) (.wait handle ms :: steps)).head?,
          ∀ bound ∈ ms, t.time < b.now + bound) ∧
      (w.state = .waiting ↔ (c.signalAt (b.place handle)).isStopped = false ∧
        ∀ bound ∈ ms, c.now < b.now + bound) := by
  have begun : ∀ t ∈ (b.triggersAt (b.place handle) (.wait handle ms :: steps)).head?,
      b.now ≤ t.time := fun t first => le_time_of_mem _ (List.mem_of_mem_head? first)
  have lasting : (b.signal handle).isStopped = true →
      (c.signalAt (b.place handle)).isStopped = true := isStopped_of_run sound run
  have passed := now_le_of_run run
  obtain ⟨known, rest⟩ := run?_cons run
  have added : (b.perform (.wait handle ms)).waiters[b.waiters.length]? =
      some (b.newWaiter handle ms) := by simp [perform, wait]
  by_cases waits : (b.newWaiter handle ms).state = .waiting
  · obtain ⟨w, inside, _, _, fired, waiting⟩ :=
      waiter_of_waiting (sound.perform known) rest added waits
    rw [place_newWaiter, deadline_newWaiter] at fired waiting
    refine ⟨w, inside, ?_, ?_⟩
    · have unfired := (newWaiter_waiting_iff.mp waits).1
      rw [fired, triggersAt_cons_of_apart rfl]
      simp [unfired]
    · rw [waiting]
      simp
  · refine ⟨_, waiter_of_settled waits rest added, ?_, ?_⟩
    · rw [newWaiter_fired_iff, iff_self_or]
      rintro ⟨t, first, timely⟩
      by_contra unfired
      -- The wait is over at once, so its bound leaves no time for a trigger.
      refine waits (newWaiter_waiting_iff.mpr ⟨Bool.not_eq_true _ ▸ unfired, ?_⟩)
      intro deadline member
      obtain ⟨bound, same, rfl⟩ := Option.mem_map.mp member
      exact Nat.lt_of_le_of_lt (begun t first) (timely bound same)
    · refine iff_of_false waits ?_
      rintro ⟨unfired, timely⟩
      refine waits (newWaiter_waiting_iff.mpr ⟨?_, ?_⟩)
      · by_contra fired
        rw [lasting (by simpa using fired)] at unfired
        cases unfired
      · intro deadline member
        obtain ⟨bound, same, rfl⟩ := Option.mem_map.mp member
        exact Nat.lt_of_le_of_lt passed (timely bound same)

/-- A wait in which nothing else goes on ends with the signal only if that had fired before. -/
theorem waitFor_eq_isStopped (b : Switchboard) (handle ms : Nat) :
    (b.waitFor handle ms).2 = (b.signal handle).isStopped := by
  rw [Bool.eq_iff_iff, ← newWaiter_fired_iff (some ms)]
  by_cases waits : (b.newWaiter handle (some ms)).state = .waiting
  · simp [waitFor, wait, pass, waiterState, waits, atTime_fired_iff]
  · simp [waitFor, wait, waiterState, waits]

/-! ## Families -/

theorem place_perform (known : handle < b.handles.length) (step : Step) :
    handle < (b.perform step).handles.length ∧ (b.perform step).place handle = b.place handle := by
  cases step with
  | new | clone =>
      simp [perform, new, clone, place, List.getElem?_append_left known]
      omega
  | trigger | wait | pass => exact ⟨known, rfl⟩

/-- A handle always knows the same signal. -/
theorem place_of_run (run : b.run? steps = some c) (known : handle < b.handles.length) :
    c.place handle = b.place handle := by
  induction steps generalizing b with
  | nil =>
      cases run
      rfl
  | cons step steps ih =>
      obtain ⟨still, same⟩ := place_perform known step
      rw [ih (run?_cons run).2 still, same]

theorem place_clone (b : Switchboard) (handle : Nat) :
    (b.clone handle).1.place (b.clone handle).2 = b.place handle := by
  simp [clone, place]

/-- A new signal is known by its own handle alone. -/
theorem place_new_ne (sound : b.Sound) (known : handle < b.handles.length) :
    b.new.1.place b.new.2 ≠ b.new.1.place handle := by
  have same : b.new.1.place handle = b.place handle := (place_perform known .new).2
  have own : b.new.1.place b.new.2 = b.signals.length := by simp [new, place]
  rw [same, own]
  exact (Nat.ne_of_lt (sound.place_lt known)).symm

/-- What is done with one signal does not concern another one, nor those who wait for it. -/
theorem perform_elsewhere (sound : b.Sound)
    (known : ∀ handle ∈ step.handle?, handle < b.handles.length)
    (elsewhere : ∀ handle ∈ step.handle?, b.place handle ≠ place) (prompt : ∀ ms, step ≠ .pass ms) :
    (b.perform step).signalAt place = b.signalAt place ∧
      (b.perform step).waiters.filter (fun w => w.place = place) =
        b.waiters.filter (fun w => w.place = place) := by
  have apart : (b.trigger? step).filter (fun t => t.place = place) = none := by
    rcases b.trigger_or_apart step place with ⟨handle, reason, rfl, same⟩ | apart
    · exact absurd same (elsewhere handle rfl)
    · exact apart
  refine ⟨signalAt_perform_of_apart sound known apart, ?_⟩
  cases step with
  | new | clone => rfl
  | trigger handle reason =>
      simp only [perform, trigger, List.filter_map]
      have unheard : ∀ w ∈ b.waiters.filter (fun w => w.place = place),
          heard (b.place handle) w = w := by
        intro w member
        have here : w.place = place := by simpa using (List.mem_filter.mp member).2
        have other := elsewhere handle rfl
        simp [heard, here, other.symm]
      have same : ((fun w : Waiter => decide (w.place = place)) ∘ heard (b.place handle)) =
          fun w => decide (w.place = place) := by
        funext w
        simp
      rw [same, List.map_congr_left unheard, List.map_id']
  | wait handle ms => simp [perform, wait, elsewhere handle rfl]
  | pass ms => exact absurd rfl (prompt ms)

/-! ## One shot -/

/-- **A signal fires once, for all its handles, and for nobody else.** In every program:

* of all triggers of a signal exactly the first is told that it was the first;
* each handle shows the reason of that trigger, and none before it; the signal has fired exactly if
  there is a reason to show;
* a handle knows the same signal for ever, a clone knows the same one as its original and a new
  signal is known by its own handle alone, and a reason once shown is shown for ever;
* a wait has ended with the signal exactly if that had fired before it or is fired before its time
  has run out, and goes on exactly as long as the signal has not fired and there is time left; one
  in which nothing else goes on ends with the signal only if that had fired before;
* what is done with one signal leaves every other one as it is, and those who wait for it. -/
theorem fires_once_for_its_handles (run : single.run? steps = some b) :
    (∀ place n t, (single.triggersAt place steps)[n]? = some t → (t.first = true ↔ n = 0)) ∧
    (∀ handle < b.handles.length,
      (b.signal handle).reason =
        (single.triggersAt (b.place handle) steps).head?.map Trigger.reason ∧
      ((b.signal handle).isStopped = true ↔ (b.signal handle).reason ≠ none) ∧
      (b.clone handle).1.place (b.clone handle).2 = b.place handle ∧
      b.new.1.place b.new.2 ≠ b.new.1.place handle ∧
      ∀ later c, b.run? later = some c → c.place handle = b.place handle ∧
        ∀ reason, (b.signal handle).reason = some reason →
          (c.signal handle).reason = some reason) ∧
    (∀ before handle ms later u, steps = before ++ .wait handle ms :: later →
      single.run? before = some u →
        ∃ w, b.waiters[u.waiters.length]? = some w ∧
          (w.state = .fired ↔ (u.signal handle).isStopped = true ∨
            ∃ t ∈ (single.triggersAt (u.place handle) steps).head?,
              ∀ bound ∈ ms, t.time < u.now + bound) ∧
          (w.state = .waiting ↔ (b.signal handle).isStopped = false ∧
            ∀ bound ∈ ms, b.now < u.now + bound)) ∧
    (∀ handle ms, (b.waitFor handle ms).2 = (b.signal handle).isStopped) ∧
    ∀ step c place, b.run? [step] = some c → (∀ ms, step ≠ .pass ms) →
      (∀ handle ∈ step.handle?, b.place handle ≠ place) →
        c.signalAt place = b.signalAt place ∧
          c.waiters.filter (fun w => w.place = place) =
            b.waiters.filter (fun w => w.place = place) := by
  have sound : b.Sound := sound_of_run sound_single run
  have silent : ∀ place, single.signalAt place = {} := by
    intro place
    cases place <;> simp [single, signalAt]
  refine ⟨?_, ?_, ?_, b.waitFor_eq_isStopped, ?_⟩
  · intro place n t nth
    rw [first_iff_of_run sound_single run nth, silent]
    simp [StopSignal.isStopped]
  · intro handle known
    refine ⟨?_, isStopped_iff_reason, b.place_clone handle, place_new_ne sound known, ?_⟩
    · rw [signal, reason_of_run sound_single run, silent]
      simp
    · intro later c rest
      have same := place_of_run rest known
      refine ⟨same, fun reason fired => ?_⟩
      rw [signal] at fired
      rw [signal, same, reason_of_run sound rest, fired]
      rfl
  · rintro before handle ms later u rfl first
    obtain ⟨v, begun, rest⟩ := run?_append run
    rw [first] at begun
    cases begun
    obtain ⟨w, inside, fired, waiting⟩ := waiter_of_wait (sound_of_run sound_single first) rest
    refine ⟨w, inside, ?_, ?_⟩
    · rw [fired]
      refine or_congr_right' fun unfired => ?_
      -- The signal has not fired before the wait, so its first trigger comes after it.
      have untouched : single.triggersAt (u.place handle) before = [] := by
        simpa [isStopped_iff_reason, signal, reason_of_run sound_single first, silent] using unfired
      rw [triggersAt_append first, untouched, List.nil_append]
    · have known := (run?_cons rest).1 handle rfl
      rw [waiting, signal, place_of_run rest known]
  · intro step c place one prompt elsewhere
    obtain ⟨known, same⟩ := run?_cons one
    cases same
    exact perform_elsewhere sound known elsewhere prompt

/-- Two tasks fire the same signal for different reasons while three wait: one for it without end,
one until the time at which it fires, and one for another signal. -/
def twoTriggers : List Step :=
  [.clone 0, .new, .wait 1 none, .wait 0 (some 5), .wait 2 none, .pass 5, .trigger 1 .expired,
    .trigger 0 .requested]

/-- The first reason stays, the second task is told that it came too late, and only the wait without
end ends with the signal. -/
theorem first_of_two_triggers_counts :
    ∃ b, single.run? twoTriggers = some b ∧
      (single.triggersAt 0 twoTriggers).map Trigger.first = [true, false] ∧
      b.waiters.map Waiter.state = [.fired, .late, .waiting] ∧
      (b.signal 0).reason = some .expired ∧ (b.signal 2).reason = none ∧
      ∀ later c, b.run? later = some c → (c.signal 0).reason = some .expired := by
  obtain ⟨b, run⟩ : ∃ b, single.run? twoTriggers = some b := ⟨_, rfl⟩
  obtain ⟨_, handles, _⟩ := fires_once_for_its_handles run
  cases run
  obtain ⟨shown, _, _, _, kept⟩ := handles 0 (by decide)
  obtain ⟨quiet, _⟩ := handles 2 (by decide)
  exact ⟨_, rfl, rfl, rfl, shown, quiet, fun later c rest => (kept later c rest).2 _ shown⟩

end Switchboard

end BugFeed
