import BugFeed.Informer
import BugFeed.Proofs.Retry.Backoff

/-!
# Failed watches and pauses in a log

A log tells which watches failed and which came to their end, so it tells how many failed in a row
(`failuresInARow`): lists that were made in between do not count, and only a watch that comes to its
end begins the count anew. The pause after a failed watch is the delay of the retry with this number
(`BackoffPolicy.pauseAfter`).

A log has the right shape if each note may come after those before it (`Spaced`): a failed watch is
followed at once by its pause, a pause by a list when it is over, or by the end of the run, and
there is no other pause. Notes that neither end a watch nor begin a pause keep the shape, wherever
it does not demand a certain note (`Spaced.append`). In a log of this shape the pauses after watches
that fail in a row never get shorter (`Spaced.le_of_unclean`).
-/

namespace BugFeed

set_option autoImplicit false

/-! ## Failed watches in a log -/

namespace InformerNote

/-- Whether a watch failed. -/
def isFailure : InformerNote → Bool
  | .closed (some status) => !status.isResumable
  | _ => false

/-- Whether a watch came to its end. -/
def isCleanEnd : InformerNote → Bool
  | .closed (some status) => status.isResumable
  | .closed none => true
  | _ => false

/-- Whether neither a watch ended nor a pause before a list began. -/
def isPlain : InformerNote → Bool
  | .closed _ | .rested _ => false
  | _ => true

variable {n : InformerNote}

theorem no_end_of_plain (plain : n.isPlain = true) :
    n.isCleanEnd = false ∧ n.isFailure = false := by
  cases n with
  | closed | rested => cases plain
  | _ => exact ⟨rfl, rfl⟩

theorem ne_rested_of_plain (plain : n.isPlain = true) (pause : Nat) : n ≠ .rested pause := by
  rintro rfl
  cases plain

end InformerNote

/-- How many watches failed, of those in a log, since one came to its end. -/
def failuresInARow (log : List (Nat × InformerNote)) : Nat :=
  (log.takeWhile fun e => !e.2.isCleanEnd).countP fun e => e.2.isFailure

/-- The pause after a watch that failed, in milliseconds. -/
def BackoffPolicy.pauseAfter (policy : BackoffPolicy) (earlier : List (Nat × InformerNote)) : Nat :=
  policy.delayMs (min (failuresInARow earlier) Informer.mostRelists)

section Failures

variable {now : Nat} {n : InformerNote} {log more : List (Nat × InformerNote)}

theorem failuresInARow_of_cleanEnd (clean : n.isCleanEnd = true) :
    failuresInARow ((now, n) :: log) = 0 := by
  rw [failuresInARow, List.takeWhile_cons_of_neg (by simp [clean]), List.countP_nil]

theorem failuresInARow_cons (unclean : n.isCleanEnd = false) :
    failuresInARow ((now, n) :: log) =
      failuresInARow log + if n.isFailure = true then 1 else 0 := by
  rw [failuresInARow, List.takeWhile_cons_of_pos (by simp [unclean]), List.countP_cons,
    failuresInARow]

theorem failuresInARow_of_failure (status : Status) (failed : status.isResumable = false) :
    failuresInARow ((now, .closed (some status)) :: log) = failuresInARow log + 1 := by
  have unclean : (InformerNote.closed (some status)).isCleanEnd = false := failed
  rw [failuresInARow_cons unclean, if_pos (by simp [InformerNote.isFailure, failed])]

theorem failuresInARow_append (plain : ∀ e ∈ more, e.2.isPlain = true) :
    failuresInARow (more ++ log) = failuresInARow log := by
  induction more with
  | nil => rfl
  | cons e more ih =>
      obtain ⟨first, rest⟩ := List.forall_mem_cons.mp plain
      obtain ⟨unclean, unfailed⟩ := InformerNote.no_end_of_plain first
      rw [List.cons_append, failuresInARow_cons unclean, unfailed, ih rest]
      rfl

/-- As long as no watch comes to its end, the number of failed watches does not fall. -/
theorem failuresInARow_le_append (unclean : ∀ e ∈ more, e.2.isCleanEnd = false) :
    failuresInARow log ≤ failuresInARow (more ++ log) := by
  induction more with
  | nil => exact Nat.le_refl _
  | cons e more ih =>
      obtain ⟨first, rest⟩ := List.forall_mem_cons.mp unclean
      rw [List.cons_append, failuresInARow_cons first]
      exact (ih rest).trans (Nat.le_add_right _ _)

theorem BackoffPolicy.pauseAfter_mono (policy : BackoffPolicy)
    (h : failuresInARow log ≤ failuresInARow more) :
    policy.pauseAfter log ≤ policy.pauseAfter more :=
  policy.monotone_delayMs (by omega)

end Failures

/-! ## The shape of a log -/

/-- What may come next after the earlier notes: a failed watch is followed at once by its pause, a
pause by a list when it is over, or by the end of the run, and a pause only follows a failed watch.
If the run is on time, the list begins just when the pause is over. -/
structure Succeeds (policy : BackoffPolicy) (onTime : Prop) (next : Nat × InformerNote)
    (earlier : List (Nat × InformerNote)) : Prop where
  failed : ∀ t status before, earlier = (t, .closed (some status)) :: before →
    status.isResumable = false → next = (t, .rested (policy.pauseAfter before))
  paused : ∀ t pause before, earlier = (t, .rested pause) :: before →
    (∃ begun, next = (begun, .began) ∧ waitEnd t pause ≤ begun ∧
      (onTime → begun = waitEnd t pause)) ∨ ∃ ended, next = (ended, .finished (.ok ()))
  rested : ∀ t pause, next = (t, .rested pause) → ∃ status before,
    earlier = (t, .closed (some status)) :: before ∧ status.isResumable = false ∧
      pause = policy.pauseAfter before

/-- A log in which each note may come after those before it. -/
def Spaced (policy : BackoffPolicy) (onTime : Prop) (log : List (Nat × InformerNote)) : Prop :=
  ∀ later next earlier, log = later ++ next :: earlier → Succeeds policy onTime next earlier

/-- A log that ends neither with a failed watch nor with a pause. -/
def Settled : List (Nat × InformerNote) → Prop
  | (_, .closed (some status)) :: _ => status.isResumable = true
  | (_, .rested _) :: _ => False
  | _ => True

section Shape

variable {policy : BackoffPolicy} {onTime : Prop} {now : Nat} {n : InformerNote}
variable {next : Nat × InformerNote} {log more : List (Nat × InformerNote)}

theorem Spaced.nil : Spaced policy onTime [] := by
  intro later next earlier split
  exact absurd split.symm (List.append_ne_nil_of_right_ne_nil _ (List.cons_ne_nil _ _))

theorem Spaced.cons (spaced : Spaced policy onTime log)
    (succeeds : Succeeds policy onTime next log) : Spaced policy onTime (next :: log) := by
  intro later other earlier split
  cases later with
  | nil =>
      cases split
      exact succeeds
  | cons entry later => exact spaced later other earlier (List.cons.inj split).2

theorem settled_of_plain (plain : n.isPlain = true) : Settled ((now, n) :: log) := by
  cases n with
  | closed | rested => cases plain
  | _ => trivial

theorem settled_of_cleanEnd (clean : n.isCleanEnd = true) : Settled ((now, n) :: log) := by
  cases n with
  | closed status =>
      cases status with
      | none => trivial
      | some status => exact clean
  | _ => cases clean

/-- After a log that is settled all may come but a pause. -/
theorem Settled.succeeds (settled : Settled log) (other : ∀ pause, n ≠ .rested pause) :
    Succeeds policy onTime (now, n) log where
  failed t status before last failed := by
    subst last
    exact absurd settled (by simp [Settled, failed])
  paused t pause before last := by
    subst last
    exact settled.elim
  rested t pause same := absurd (Prod.mk.inj same).2 (other pause)

theorem Settled.append (settled : Settled log) (plain : ∀ e ∈ more, e.2.isPlain = true) :
    Settled (more ++ log) := by
  cases more with
  | nil => exact settled
  | cons e more => exact settled_of_plain (plain e List.mem_cons_self)

theorem Spaced.append (spaced : Spaced policy onTime log) (settled : Settled log)
    (plain : ∀ e ∈ more, e.2.isPlain = true) : Spaced policy onTime (more ++ log) := by
  induction more with
  | nil => exact spaced
  | cons e more ih =>
      obtain ⟨first, rest⟩ := List.forall_mem_cons.mp plain
      exact (ih rest).cons ((settled.append rest).succeeds (InformerNote.ne_rested_of_plain first))

/-- The pauses of watches that fail in a row never get shorter. -/
theorem Spaced.le_of_unclean (spaced : Spaced policy onTime log) {later mid earlier : _}
    {t s q p : Nat} (split : log = later ++ (t, .rested q) :: (mid ++ (s, .rested p) :: earlier))
    (unclean : ∀ e ∈ mid, e.2.isCleanEnd = false) : p ≤ q := by
  obtain ⟨_, before, last, _, longer⟩ := (spaced later _ _ split).rested t q rfl
  have again : log = (later ++ (t, .rested q) :: mid) ++ (s, .rested p) :: earlier := by
    simpa using split
  obtain ⟨status, first, failure, failed, shorter⟩ := (spaced _ _ _ again).rested s p rfl
  cases mid with
  | nil => cases last
  | cons e mid =>
      have same : before = mid ++ (s, .rested p) :: earlier := (List.cons.inj last).2.symm
      have before_pause : failuresInARow first ≤ failuresInARow ((s, .rested p) :: earlier) := by
        rw [failure, failuresInARow_cons rfl, failuresInARow_of_failure status failed]
        omega
      rw [longer, same]
      refine shorter.trans_le (policy.pauseAfter_mono (before_pause.trans ?_))
      exact failuresInARow_le_append fun e member => unclean e (List.mem_cons_of_mem _ member)

end Shape

end BugFeed
