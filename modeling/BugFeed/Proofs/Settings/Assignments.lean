import BugFeed.Proofs.Settings.Keys
import BugFeed.Proofs.Text.Digits
import BugFeed.Settings.Environment

/-!
# Layers that assign values to settings

A layer assigns values to some of the settings if it mentions each of these with its value, and all
else that it mentions is a table on the way to a setting or leaves the way to every setting at a
name (`Layer.Assigns`). Laid over anything, it puts its values in the place of what was there and
leaves all other settings as they are (`Layer.Assigns.found?_layOn`).

The present settings assign themselves (`assigns_layerOf`). An environment assigns values if a
variable writes each of them in digits under the name of its setting, in letters of any case, and
all its other variables hold no text, are no settings, or leave the way to every setting at a name
(`Environment.Assigns`).
-/

namespace BugFeed.Settings

set_option autoImplicit false

/-! ## What may be mentioned -/

/-- Whether a path leaves the way of some names at a name. -/
def leaves : List String → Path → Bool
  | name :: names, .key a :: path => a ≠ name || leaves names path
  | _, _ => false

/-- A path of names leaves the way of others if neither begins with the other. -/
theorem leaves_names {names steps : List String} :
    leaves names (steps.map .key) = true ↔
      ¬ steps.map Step.key <+: names.map .key ∧ ¬ names.map Step.key <+: steps.map .key := by
  induction names generalizing steps with
  | nil => simp [leaves]
  | cons name names ih =>
      cases steps with
      | nil => simp [leaves]
      | cons step steps =>
          simp only [List.map_cons, leaves, Bool.or_eq_true, decide_eq_true_eq, ih,
            List.cons_prefix_cons, Step.key.injEq]
          by_cases same : step = name
          · simp [same]
          · simp [same, Ne.symm same]

/-- A path that is neither the beginning nor a continuation of the way to a setting. -/
def Apart (path : Path) : Prop := ∀ k : Key, ¬ path <+: k.path ∧ ¬ k.path <+: path

/-- A path of names that is apart leaves the way to every setting at a name. -/
theorem apart_names {steps : List String} :
    Apart (steps.map .key) ↔ ∀ k : Key, leaves k.names (steps.map .key) = true :=
  forall_congr' fun _ => leaves_names.symm

theorem suits_of_leaves {names : List String} {path : Path} (h : leaves names path = true)
    (f : Finding) : Suits names path f := by
  induction names generalizing path with
  | nil => cases h
  | cons name names ih =>
      match path with
      | [] => cases h
      | .place i :: path => cases h
      | .key a :: path =>
          intro here
          rw [leaves, here] at h
          exact ih (by simpa using h)

/-- The names themselves suit what is no table. -/
theorem suits_path (names : List String) {f : Finding} :
    Suits names (names.map .key) f ↔ f ≠ .table := by
  induction names with
  | nil => exact Iff.rfl
  | cons name names ih => exact ⟨fun h => ih.mp (h rfl), fun h _ => ih.mpr h⟩

/-- A table above a path suits names if the path leads to them or leaves their way. -/
theorem suits_above {names : List String} {path : Path} {steps : Path}
    (h : path = names.map .key ∨ leaves names path = true) (way : steps <+: path)
    (short : steps ≠ path) : Suits names steps .table := by
  induction names generalizing path steps with
  | nil =>
      obtain rfl : path = [] := h.resolve_right nofun
      exact absurd (List.prefix_nil.mp way) short
  | cons name names ih =>
      cases steps with
      | nil => rfl
      | cons step steps =>
          obtain ⟨rest, rfl⟩ := way
          have short' : steps ≠ steps ++ rest := fun same => short (congrArg (step :: ·) same)
          cases step with
          | key a =>
              intro here
              subst here
              refine ih ?_ (List.prefix_append steps rest) short'
              exact h.imp (fun same => (List.cons.inj same).2) fun apart => by
                simpa [leaves] using apart
          | place i =>
              rcases h with same | apart
              · cases (List.cons.inj same).1
              · cases apart

/-- The ways to two settings part at a name. -/
theorem Key.leaves_path {k j : Key} (h : j ≠ k) : leaves k.names j.path = true := by
  revert h
  cases k <;> cases j <;> decide

theorem Key.leaves_path_self (k : Key) : leaves k.names k.path = false := by
  cases k <;> decide

/-- What a layer may mention that assigns values to settings. -/
inductive Mentions (values : Key → Option Nat) : Spot → Prop where
  /-- A setting with its value. -/
  | setting {k : Key} {n : Nat} (given : values k = some n) : Mentions values ⟨k.path, .whole n⟩
  /-- A table on the way to a setting. -/
  | above {path : Path} (k : Key) (way : path <+: k.path) (short : path ≠ k.path) :
      Mentions values ⟨path, .table⟩
  /-- Something whose path leaves the way to every setting at a name. -/
  | other {s : Spot} (apart : ∀ k : Key, leaves k.names s.path = true) : Mentions values s

variable {values : Key → Option Nat}

theorem Mentions.suits {s : Spot} (h : Mentions values s) (k : Key) : s.Suits k.names := by
  cases h with
  | @setting j n given =>
      by_cases same : j = k
      · subst same
        exact (suits_path j.names).mpr nofun
      · exact suits_of_leaves (Key.leaves_path same) _
  | above j way short =>
      by_cases same : j = k
      · subst same
        exact suits_above (.inl rfl) way short
      · exact suits_above (.inr (Key.leaves_path same)) way short
  | other apart => exact suits_of_leaves (apart k) _

/-- What is mentioned at a setting is its value. -/
theorem Mentions.at_setting {s : Spot} (h : Mentions values s) {k : Key} (here : s.path = k.path) :
    ∃ n, values k = some n ∧ s.finding = .whole n := by
  cases h with
  | @setting j n given =>
      by_cases same : j = k
      · exact ⟨n, same ▸ given, rfl⟩
      · have parted := Key.leaves_path same
        rw [show j.path = k.path from here, Key.leaves_path_self] at parted
        cases parted
  | @above path j way short =>
      have suits := (Mentions.above j way short : Mentions values _).suits k
      rw [Spot.Suits, show path = k.path from here] at suits
      exact absurd rfl ((suits_path k.names).mp suits)
  | other apart =>
      have parted := apart k
      rw [here, Key.leaves_path_self] at parted
      cases parted

theorem Key.place_not_mem_path (k : Key) (i : Int) : Step.place i ∉ k.path := by
  cases k <;> simp [path, names]

/-- Only things beside the settings lie in lists. -/
theorem Mentions.other_of_place {s : Spot} (h : Mentions values s) {i : Int}
    (there : Step.place i ∈ s.path) (k : Key) : leaves k.names s.path = true := by
  cases h with
  | @setting j n given => exact absurd there (j.place_not_mem_path i)
  | above j way short => exact absurd (way.subset there) (j.place_not_mem_path i)
  | other apart => exact apart k

/-! ## Layers -/

/-- A layer that assigns values to settings. -/
structure Layer.Assigns (layer : Layer) (values : Key → Option Nat) : Prop where
  /-- The values are small enough for a layer. -/
  small : ∀ k n, values k = some n → n < wordBound
  given : ∀ k n, values k = some n → ⟨k.path, .whole n⟩ ∈ layer.spots
  mentions : ∀ s ∈ layer.spots, Mentions values s

/-- Whether all that a layer mentions beside the settings can be reached from every node. -/
def Layer.Within (layer : Layer) : Prop :=
  ∀ s ∈ layer.spots, (∀ k : Key, leaves k.names s.path = true) → ∀ step ∈ s.path, step.Within

theorem Layer.within_of_steps {layer : Layer}
    (h : ∀ s ∈ layer.spots, ∀ step ∈ s.path, step.Within) : layer.Within := fun s hs _ => h s hs

/-- A layer is laid if all that it mentions beside the settings is within reach. -/
theorem Layer.Assigns.exists_layOn {layer : Layer} (assigns : layer.Assigns values)
    (within : layer.Within) (node : Node) : ∃ next, layOn node layer = some next := by
  refine Settings.exists_layOn (fun e he step hstep => ?_) node
  cases step with
  | key name => trivial
  | place i =>
      obtain ⟨t, ht⟩ := List.exists_mem_of_ne_nil _ e.2.spots_ne_nil
      have there : t.under (Path.ofKey e.1).landing ∈ layer.spots :=
        List.mem_flatMap.mpr ⟨e, he, List.mem_map_of_mem ht⟩
      have on_way : Step.place i ∈ (t.under (Path.ofKey e.1).landing).path :=
        List.mem_append_left _ (Path.place_mem_landing hstep)
      exact within _ there ((assigns.mentions _ there).other_of_place on_way) _ on_way

/-- **A layer puts its values in the place of what was there and leaves all other settings.** -/
theorem Layer.Assigns.found?_layOn {layer : Layer} (assigns : layer.Assigns values)
    {node next : Node} (laid : layOn node layer = some next) (k : Key) :
    next.found? k.names = ((values k).map Finding.whole).or (node.found? k.names) := by
  have there (s : Spot) (hs : s ∈ layer.spots) := assigns.mentions s hs
  obtain ⟨name, rest, names⟩ := k.exists_names_cons
  rw [names, Settings.found?_layOn (fun s hs => names ▸ (there s hs).suits k) laid, ← names]
  cases value : values k with
  | none =>
      refine landed_of_apart (fun s hs here => ?_) _
      obtain ⟨n, given, -⟩ := (there s hs).at_setting here
      rw [value] at given
      cases given
  | some n =>
      refine landed_of_mem (fun s hs here => ?_) (assigns.given k n value) _
      obtain ⟨m, given, shown⟩ := (there s hs).at_setting here
      obtain rfl := Option.some.inj (value.symm.trans given)
      exact shown

/-- A layer without entries assigns nothing. -/
theorem assigns_nil : Layer.Assigns [] fun _ => none where
  small _ _ given := nomatch given
  given _ _ given := nomatch given
  mentions _ hs := nomatch hs

/-- The layer of settings assigns their values. -/
theorem assigns_layerOf {c : InformerConfig} (small : ∀ k, (c.get k).toNat < wordBound) :
    c.layerOf.Assigns fun k => some (c.get k).toNat where
  small k n given := Option.some.inj given ▸ small k
  given k n given := by
    cases given
    rw [c.spots_layerOf]
    cases k <;> simp
  mentions := by
    have setting (k : Key) : Mentions (fun k => some (c.get k).toNat) ⟨k.path, _⟩ := .setting rfl
    rw [c.spots_layerOf]
    simp only [List.forall_mem_cons, setting, true_and]
    refine ⟨.above .pollInterval ?_ ?_, .above .maxRetries ?_ ?_, .above .maxRetries ?_ ?_,
      nofun⟩ <;> decide

/-! ## Environments -/

namespace Environment

/-- The path at which a variable that is a setting puts its value. -/
def pathOf? (name : String) : Option Path := (keyOf? name).map fun key => (Path.ofKey key).landing

/-- Whether a text writes a number in digits. -/
def Writes (text : String) (n : Nat) : Prop :=
  text.toList ≠ [] ∧ Text.AllDigits text.toList ∧ Text.digitsValue text.toList = n

/-- Every number is written by its decimal text. -/
theorem writes_decimal (n : Nat) : Writes (Text.decimal n) n := by
  rw [Writes, Text.decimal, String.toList_ofList]
  exact ⟨Nat.toDigits_ne_nil, Text.allDigits_toDigits n, Text.digitsValue_toDigits n⟩

/-- An environment that assigns values to settings. -/
structure Assigns (environment : Environment) (values : Key → Option Nat) : Prop where
  /-- The values are small enough for a layer. -/
  small : ∀ k n, values k = some n → n < wordBound
  given : ∀ k n, values k = some n →
    ∃ e ∈ environment.entries, pathOf? e.1 = some k.path ∧ Writes e.2 n
  others : ∀ e ∈ environment.entries, ∀ path, pathOf? e.1 = some path → e.2 ≠ "" →
    (∃ k n, values k = some n ∧ path = k.path ∧ Writes e.2 n) ∨
    ∀ k : Key, leaves k.names path = true

theorem smallLetter_of_isDigit {c : Char} (h : c.isDigit = true) : smallLetter c = c := by
  have plain : c ≠ kelvinSign := by
    rintro rfl
    cases h
  have small : c.toLower = c := dif_neg fun capital => by
    simp only [Char.isDigit, Bool.and_eq_true, decide_eq_true_eq] at h
    exact absurd (UInt32.le_trans capital.1 h.2) (by decide)
  rw [smallLetter, if_neg plain, small]

theorem splitSign_of_isDigit {c : Char} (h : c.isDigit = true) (cs : List Char) :
    splitSign (c :: cs) = (false, c :: cs) := by
  unfold splitSign
  split
  · rename_i minus
    cases minus
    cases h
  · rename_i plus
    cases plus
    cases h
  · rfl

/-- Text that begins with a digit is no word in letters. -/
theorem lowercase_ne {text : String} {c : Char} {cs : List Char} (h : text.toList = c :: cs)
    (digit : c.isDigit = true) {word : String} {d : Char} {ds : List Char}
    (letters : word.toList = d :: ds) (letter : d.isDigit = false) : lowercase text ≠ word := by
  intro same
  have chars := congrArg String.toList same
  rw [lowercase, String.toList_ofList, h, letters, List.map_cons,
    smallLetter_of_isDigit digit] at chars
  rw [(List.cons.inj chars).1, letter] at digit
  cases digit

/-- Digits are read as the number that they write. -/
theorem scalarOf_of_writes {text : String} {n : Nat} (writes : Writes text n)
    (small : n < wordBound) : scalarOf text = .integer n := by
  obtain ⟨nonempty, digits, value⟩ := writes
  obtain ⟨c, cs, first⟩ := List.exists_cons_of_ne_nil nonempty
  have digit : c.isDigit = true := digits c (first ▸ List.mem_cons_self)
  have unsigned : splitSign text.toList = (false, text.toList) := by
    rw [first]
    exact splitSign_of_isDigit digit cs
  have read : readNat? text.toList = some n := by
    have all : text.toList.all Char.isDigit = true := List.all_eq_true.mpr digits
    have some : text.toList.isEmpty = false := List.isEmpty_eq_false_iff.mpr nonempty
    rw [readNat?, all, some, value]
    rfl
  have range : Int64.minValue.toInt ≤ (n : Int) ∧ (n : Int) ≤ Int64.maxValue.toInt := by
    have least : Int64.minValue.toInt = -(wordBound : Int) := rfl
    have most : Int64.maxValue.toInt = (wordBound : Int) - 1 := rfl
    omega
  have number : readInt64? text = some (n : Int) := by
    simp only [readInt64?, unsigned, read, bind, Option.bind_some]
    exact if_pos range
  rw [scalarOf, if_neg (lowercase_ne first digit rfl rfl),
    if_neg (lowercase_ne first digit rfl rfl), number]

/-- What an environment mentions: the values of its variables that are settings and hold text. -/
theorem mem_spots_layer (environment : Environment) (s : Spot) :
    s ∈ Layer.spots environment.layer ↔ ∃ e ∈ environment.entries, ∃ path,
      pathOf? e.1 = some path ∧ e.2 ≠ "" ∧ s = ⟨path, .scalar (scalarOf e.2)⟩ := by
  constructor
  · intro hs
    obtain ⟨d, hd, hs⟩ := List.mem_flatMap.mp hs
    obtain ⟨e, he, setting⟩ := List.mem_filterMap.mp hd
    rw [settingOf?] at setting
    split at setting
    · cases setting
    · rename_i text
      obtain ⟨key, named, rfl⟩ := Option.map_eq_some_iff.mp setting
      obtain ⟨t, ht, rfl⟩ := List.mem_map.mp hs
      obtain rfl := List.mem_singleton.mp ht
      refine ⟨e, he, (Path.ofKey key).landing, by rw [pathOf?, named]; rfl, ?_, ?_⟩
      · rwa [String.isEmpty_iff] at text
      · rw [Spot.under, List.append_nil]
  · rintro ⟨e, he, path, at_path, text, rfl⟩
    obtain ⟨key, named, rfl⟩ := Option.map_eq_some_iff.mp at_path
    have setting : settingOf? e.1 e.2 = some (key, .leaf (some origin) (scalarOf e.2)) := by
      rw [settingOf?, if_neg (by rwa [String.isEmpty_iff]), named]
      rfl
    refine List.mem_flatMap.mpr ⟨_, List.mem_filterMap.mpr ⟨e, he, setting⟩, ?_⟩
    exact List.mem_map.mpr ⟨_, List.mem_singleton.mpr rfl, by rw [Spot.under, List.append_nil]⟩

/-- The layer of an environment assigns the values that the environment assigns. -/
theorem Assigns.layer {environment : Environment} (assigns : environment.Assigns values) :
    Layer.Assigns environment.layer values where
  small := assigns.small
  given k n given := by
    obtain ⟨e, he, path, writes⟩ := assigns.given k n given
    refine (mem_spots_layer environment _).mpr ⟨e, he, k.path, path, ?_, ?_⟩
    · rintro empty
      exact writes.1 (by rw [empty]; rfl)
    · rw [scalarOf_of_writes writes (assigns.small k n given)]
      rfl
  mentions s hs := by
    obtain ⟨e, he, path, at_path, text, rfl⟩ := (mem_spots_layer environment s).mp hs
    rcases assigns.others e he path at_path text with ⟨k, n, given, rfl, writes⟩ | apart
    · rw [scalarOf_of_writes writes (assigns.small k n given)]
      exact .setting given
    · exact .other apart

end Environment

end BugFeed.Settings
