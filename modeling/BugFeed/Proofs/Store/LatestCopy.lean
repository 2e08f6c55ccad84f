import Mathlib.Data.Finset.Max
import BugFeed.Proofs.Store.Contents
import BugFeed.Proofs.Watch.Run

/-!
# Of the copies that events report the latest one stays

What events leave under a name is a fold over the copies that they report of it
(`Store.get?_applyAll_eq`): each of these takes the place of what is kept, unless that is newer.

Such a fold ends in the latest of its copies if no two different copies changed at one time
(`Bug.IsLatest.foldl_orNewer`): once the latest one was met, none of the others moves what is kept.
Without that condition the later of two copies in the list would win, and the order would count. The
fold then depends only on which copies are reported, and so does the store: neither their order nor
their number matters, nor whether they are reported as created or as changed, nor what faults are
reported among them (`Store.applyAll_keeps_latest`).
-/

namespace BugFeed

set_option autoImplicit false

namespace WatchEvent

/-- The copies that some events report, in the order of the events. -/
def reported (events : List WatchEvent) : List Bug := events.filterMap bug?

end WatchEvent

namespace Bug

/-- No two different copies of one bug changed at the same time. -/
def Agree (reported : List Bug) : Prop :=
  ∀ a ∈ reported, ∀ b ∈ reported, a.name = b.name → a.lastChange = b.lastChange → a = b

/-- A copy is the latest of a name among some copies. -/
structure IsLatest (reported : List Bug) (name : String) (b : Bug) : Prop where
  member : b ∈ reported
  named : b.name = name
  latest : ∀ c ∈ reported, c.name = name → c.lastChange ≤ b.lastChange

variable {reported : List Bug} {name : String} {b c : Bug}

/-- A copy that changed earlier leaves no trace once a later one is reported. -/
theorem orNewer_orNewer (h : c.lastChange ≤ b.lastChange) (kept : Option Bug) :
    b.orNewer (some (c.orNewer kept)) = b.orNewer kept := by
  cases kept with
  | none => exact orNewer_of_le h
  | some d =>
      rcases lt_or_ge c.lastChange d.lastChange with later | earlier
      · rw [orNewer_of_lt later]
      · rw [orNewer_of_le earlier, orNewer_of_le h, orNewer_of_le (earlier.trans h)]

/-- Of finitely many copies of a name one is the latest. -/
theorem exists_isLatest (h : ∃ c ∈ reported, c.name = name) : ∃ b, IsLatest reported name b := by
  obtain ⟨c, member, named⟩ := h
  have of_name (d : Bug) :
      d ∈ (reported.filter fun d => d.name = name).toFinset ↔ d ∈ reported ∧ d.name = name := by
    simp
  obtain ⟨b, inside, latest⟩ :=
    Finset.exists_max_image _ lastChange ⟨c, (of_name c).mpr ⟨member, named⟩⟩
  obtain ⟨member, named⟩ := (of_name b).mp inside
  exact ⟨b, member, named, fun d member named => latest d ((of_name d).mpr ⟨member, named⟩)⟩

/-- The latest copy is the latest among any copies that are the same but for order and number. -/
theorem IsLatest.of_mem_iff {others : List Bug} (h : IsLatest reported name b)
    (same : ∀ c, c ∈ others ↔ c ∈ reported) : IsLatest others name b where
  member := (same b).mpr h.member
  named := h.named
  latest c member named := h.latest c ((same c).mp member) named

/-- Copies none of which would take the place of a kept one leave it there. -/
theorem foldl_orNewer_of_forall (h : ∀ d ∈ reported, d.orNewer (some c) = c) :
    reported.foldl (fun kept d => some (d.orNewer kept)) (some c) = some c := by
  induction reported with
  | nil => rfl
  | cons d reported ih =>
      rw [List.foldl_cons, h d List.mem_cons_self]
      exact ih fun e member => h e (List.mem_cons_of_mem d member)

/-- **However often and in whatever order copies are reported, the latest of them stays**, unless
what was kept before is newer. -/
theorem foldl_orNewer (member : b ∈ reported)
    (latest : ∀ d ∈ reported, d.lastChange ≤ b.lastChange)
    (only : ∀ d ∈ reported, d.lastChange = b.lastChange → d = b) (kept : Option Bug) :
    reported.foldl (fun kept d => some (d.orNewer kept)) kept = some (b.orNewer kept) := by
  induction reported generalizing kept with
  | nil => cases member
  | cons d reported ih =>
      rw [List.foldl_cons]
      by_cases again : b ∈ reported
      · rw [ih again (fun e inside => latest e (List.mem_cons_of_mem d inside))
          (fun e inside => only e (List.mem_cons_of_mem d inside)),
          orNewer_orNewer (latest d List.mem_cons_self)]
      · obtain rfl : b = d := (List.mem_cons.mp member).resolve_right again
        refine foldl_orNewer_of_forall fun e inside => orNewer_of_lt ?_
        have rest : e ∈ b :: reported := List.mem_cons_of_mem b inside
        have before : e.lastChange < b.lastChange :=
          lt_of_le_of_ne (latest e rest) fun tie => again (only e rest tie ▸ inside)
        exact before.trans_le (le_orNewer b kept)

theorem IsLatest.foldl_orNewer (agree : Agree reported) (h : IsLatest reported name b)
    (kept : Option Bug) :
    (reported.filter fun d => d.name = name).foldl (fun kept d => some (d.orNewer kept)) kept =
      some (b.orNewer kept) := by
  have split {d : Bug} (inside : d ∈ reported.filter fun d => d.name = name) :
      d ∈ reported ∧ d.name = name := by simpa using List.mem_filter.mp inside
  refine Bug.foldl_orNewer (List.mem_filter.mpr ⟨h.member, by simpa using h.named⟩)
    (fun d inside => h.latest d (split inside).1 (split inside).2) (fun d inside tie => ?_) kept
  exact agree d (split inside).1 b h.member ((split inside).2.trans h.named.symm) tie

end Bug

namespace Store

open WatchEvent

variable {s : Store} {name : String} {b : Bug}
variable {event : WatchEvent} {events others : List WatchEvent}

/-- An event that did not change the store left it as it was. -/
theorem apply_eq_self_of_not_changed (unchanged : (s.apply event).2 = false) :
    (s.apply event).1 = s := by
  revert unchanged
  rw [apply]
  cases event.bug? with
  | none => exact fun _ => rfl
  | some b =>
      by_cases taken : s.accepts b = true
      · simp [taken]
      · simp [taken]

/-- What events leave under a name is a fold over the copies of that name that they report. -/
theorem get?_applyAll_eq (s : Store) (events : List WatchEvent) (name : String) :
    (s.applyAll events).get? name =
      ((reported events).filter fun b => b.name = name).foldl (fun kept b => some (b.orNewer kept))
        (s.get? name) := by
  induction events generalizing s with
  | nil => rfl
  | cons event events ih =>
      have step : s.applyAll (event :: events) = (s.apply event).1.applyAll events := rfl
      rw [step, ih]
      cases about : event.bug? with
      | none => rw [apply_eq_self s about, reported, reported, List.filterMap_cons_none about]
      | some b =>
          rw [reported, reported, List.filterMap_cons_some about]
          by_cases same : b.name = name
          · subst same
            rw [List.filter_cons_of_pos (by simp), List.foldl_cons, get?_apply_self s about]
          · rw [List.filter_cons_of_neg (by simpa using same),
              get?_apply_of_ne s about (Ne.symm same)]

/-- Under a name that no event reports a copy of, nothing changes. -/
theorem get?_applyAll_of_ne (s : Store) (untouched : ∀ b ∈ reported events, b.name ≠ name) :
    (s.applyAll events).get? name = s.get? name := by
  have none_of_name : ((reported events).filter fun b => b.name = name) = [] :=
    List.filter_eq_nil_iff.mpr fun b member => by simpa using untouched b member
  rw [get?_applyAll_eq, none_of_name, List.foldl_nil]

/-- Under a name that events report copies of, the latest of these stays. -/
theorem get?_applyAll_of_isLatest (s : Store) (agree : Bug.Agree (reported events))
    (latest : Bug.IsLatest (reported events) name b) :
    (s.applyAll events).get? name = some (b.orNewer (s.get? name)) := by
  rw [get?_applyAll_eq, latest.foldl_orNewer agree]

/-- Events that report the same copies, in any order and number, make the same store. -/
theorem applyAll_eq_of_mem_iff (s : Store) (agree : Bug.Agree (reported events))
    (same : ∀ b, b ∈ reported others ↔ b ∈ reported events) :
    s.applyAll others = s.applyAll events := by
  have agree' : Bug.Agree (reported others) := fun a ha b hb =>
    agree a ((same a).mp ha) b ((same b).mp hb)
  refine eq_of_get?_eq fun name => ?_
  by_cases touched : ∃ b ∈ reported events, b.name = name
  · obtain ⟨b, latest⟩ := Bug.exists_isLatest touched
    rw [get?_applyAll_of_isLatest s agree latest,
      get?_applyAll_of_isLatest s agree' (latest.of_mem_iff same)]
  · have untouched : ∀ b ∈ reported events, b.name ≠ name := fun b member named =>
      touched ⟨b, member, named⟩
    rw [get?_applyAll_of_ne s untouched,
      get?_applyAll_of_ne s fun b member => untouched b ((same b).mp member)]

/-- **Taking events over keeps the latest copies.** Let no two different copies of one bug that the
events report have changed at the same time. Then events that report the same copies, in any order
and any number of times, as created or as changed and among any faults, make the same store. Under a
name that is reported it holds the latest copy that is reported of it, unless what it held before is
newer, and under any other name what it held before. An event that is said not to have changed the
store has left it as it was. -/
theorem applyAll_keeps_latest (s : Store) (events : List WatchEvent)
    (agree : Bug.Agree (reported events)) :
    (∀ others, (∀ b, b ∈ reported others ↔ b ∈ reported events) →
      s.applyAll others = s.applyAll events) ∧
    (∀ name, (∃ b ∈ reported events, b.name = name) → ∃ b, Bug.IsLatest (reported events) name b ∧
      (s.applyAll events).get? name = some (b.orNewer (s.get? name))) ∧
    (∀ name, (∀ b ∈ reported events, b.name ≠ name) →
      (s.applyAll events).get? name = s.get? name) ∧
    ∀ (t : Store) (event : WatchEvent), (t.apply event).2 = false → (t.apply event).1 = t := by
  refine ⟨fun others same => applyAll_eq_of_mem_iff s agree same, fun name touched => ?_,
    fun name untouched => get?_applyAll_of_ne s untouched,
    fun t event unchanged => apply_eq_self_of_not_changed unchanged⟩
  obtain ⟨b, latest⟩ := Bug.exists_isLatest touched
  exact ⟨b, latest, get?_applyAll_of_isLatest s agree latest⟩

/-- A store of two bugs; then one of them changes twice and a change of the other comes late. -/
theorem applyAll_keeps_latest_of_two :
    let bug (id : UInt64) (changed : Nat) : Bug := .ofInfo (.sample id 0 changed)
    let s : Store := .replace [bug 1 5, bug 2 9]
    let events : List WatchEvent := [.modified (bug 1 6), .modified (bug 2 4), .added (bug 1 7)]
    let others : List WatchEvent := [.added (bug 1 7), .error (.expired ⟨60, 0⟩),
      .modified (bug 1 6), .added (bug 2 4), .modified (bug 1 7)]
    Bug.Agree (reported events) ∧ (∀ b, b ∈ reported others ↔ b ∈ reported events) ∧
      s.applyAll others = s.applyAll events ∧
      (s.applyAll others).get? (Bug.nameOf 1) = some (bug 1 7) ∧
      (s.applyAll others).get? (Bug.nameOf 2) = some (bug 2 9) := by
  intro bug s events others
  have apart : Bug.nameOf 2 ≠ Bug.nameOf 1 := by decide
  have held (id : UInt64) (changed : Nat) (member : bug id changed ∈ [bug 1 5, bug 2 9]) :
      s.get? (Bug.nameOf id) = some (bug id changed) := get?_replace (by decide) member
  have copies (b : Bug) : b ∈ reported events ↔ b = bug 1 6 ∨ b = bug 2 4 ∨ b = bug 1 7 := by
    have all : reported events = [bug 1 6, bug 2 4, bug 1 7] := rfl
    simp [all]
  have same (b : Bug) : b ∈ reported others ↔ b ∈ reported events := by
    have all : reported others = [bug 1 7, bug 1 6, bug 2 4, bug 1 7] := rfl
    rw [copies]
    simp only [all, List.mem_cons, List.not_mem_nil]
    grind
  have agree : Bug.Agree (reported events) := by
    intro a ha b hb named tie
    rcases (copies a).mp ha with rfl | rfl | rfl <;> rcases (copies b).mp hb with rfl | rfl | rfl
    all_goals first | rfl | exact absurd tie (by decide)
  obtain ⟨unordered, latest, -, -⟩ := applyAll_keeps_latest s events agree
  have equal := unordered others same
  refine ⟨agree, same, equal, ?_, ?_⟩
  · obtain ⟨b, isLatest, kept⟩ := latest (Bug.nameOf 1) ⟨bug 1 7, (copies _).mpr (by simp), rfl⟩
    have late := isLatest.latest (bug 1 7) ((copies _).mpr (by simp)) rfl
    rcases (copies b).mp isLatest.member with rfl | rfl | rfl
    · exact absurd late (by decide)
    · exact absurd isLatest.named apart
    · have newer : (bug 1 5).lastChange ≤ (bug 1 7).lastChange := by decide
      rw [equal, kept, held 1 5 (by simp), Bug.orNewer_of_le newer]
  · obtain ⟨b, isLatest, kept⟩ := latest (Bug.nameOf 2) ⟨bug 2 4, (copies _).mpr (by simp), rfl⟩
    rcases (copies b).mp isLatest.member with rfl | rfl | rfl
    · exact absurd isLatest.named (Ne.symm apart)
    · have older : (bug 2 4).lastChange < (bug 2 9).lastChange := by decide
      rw [equal, kept, held 2 9 (by simp), Bug.orNewer_of_lt older]
    · exact absurd isLatest.named (Ne.symm apart)

end Store

end BugFeed
