import BugFeed.Proofs.Settings.Assignments
import BugFeed.Settings.Load

/-!
# Settings are layered field by field

Where the file and the environment assign values to settings, every setting that is loaded has the
value of the environment, or else that of the file, or else its default, whatever the layers say
about the other settings (`loads_field_by_field`). What they mention beside the settings does not
matter as long as its path leaves the way to every setting at a name. A place of a list below zero
may still lie before the beginning of its list, and then nothing is loaded.

Present settings are overridden in the same way if all of them are signed 64-bit numbers. Settings
may be larger, and those cannot be overridden at all (`overrides_field_by_field`).
-/

namespace BugFeed

set_option autoImplicit false

open Settings

/-! ## Files -/

namespace Settings

/-- A file with a plain name that has the ending is found under its name. -/
theorem Files.layer_of_plain {files : Files} {name text : String} {entries : Entries Toml.Origin}
    (single : partsOf name = [name])
    (complete : namesFile name && hasEnding name && name != upward &&
      name.toList.head? != some '/') (there : files.get? name = some text)
    (read : Toml.read? (withoutMark text) = some entries) :
    files.layer name = .ok (entries.marked (some name)).toLayer := by
  simp only [Bool.and_eq_true, bne_iff_ne] at complete
  obtain ⟨⟨⟨named, ending⟩, inside⟩, relative⟩ := complete
  have joined : joined [name] = name := by simp [Files.joined]
  have reached : files.textAt? [name] = some text := by
    simp [textAt?, follow?, hasFolder, inside, joined, there]
  have found : files.find name = .ok (name, text) := by
    simp [find, single, inside, relative, named, reached, joined, ending]
  simp only [layer, found, read, bind, Except.bind, pure, Except.pure]

/-- A file that sets how often a watch polls and how many attempts a list has, and names a color. -/
def Files.sampleText : String :=
  "[Watch]\nPOLL_INTERVAL_MS = 5\n[retry.list]\nmax_retries = 3\n[extra]\ncolor = \"red\"\n"

def Files.sample : Files := .ofList [("a.toml", sampleText)]

/-- The layer of that file. -/
def Layer.sample : Layer :=
  let number (n : Int) : Node := .leaf (some "a.toml") (.integer n)
  let table (entries : List (String × Node)) : Node := .table (some "a.toml") (nodeOfFields entries)
  [("Watch", table [("POLL_INTERVAL_MS", number 5)]),
    ("retry", table [("list", table [("max_retries", number 3)])]),
    ("extra", table [("color", .leaf (some "a.toml") (.text "red"))])]

/-- What that file assigns. -/
def Layer.sampleValues : Key → Option Nat
  | .pollInterval => some 5
  | .maxRetries => some 3
  | _ => none

theorem Files.layer_sample : sample.layer "a.toml" = .ok Layer.sample := by
  have there : sample.get? "a.toml" = some sampleText := by decide
  have read : Toml.read? (withoutMark sampleText) = some (
      .more "Watch" (.table .opened
        (.more "POLL_INTERVAL_MS" (.leaf .closed (.integer 5)) .done)) <|
      .more "retry" (.table .passed (.more "list" (.table .opened
        (.more "max_retries" (.leaf .closed (.integer 3)) .done)) .done)) <|
      .more "extra" (.table .opened
        (.more "color" (.leaf .closed (.text "red")) .done)) .done) := rfl
  rw [layer_of_plain (by decide) (by decide) there read]
  rfl

theorem Layer.assigns_sample : sample.Assigns sampleValues where
  small k n given := by
    cases k <;> cases given <;> decide
  given k n given := by
    cases k <;> cases given <;> decide
  mentions := by
    have spots : sample.spots = [⟨[.key "watch"], .table⟩, ⟨Key.pollInterval.path, .whole 5⟩,
        ⟨[.key "retry"], .table⟩, ⟨[.key "retry", .key "list"], .table⟩,
        ⟨Key.maxRetries.path, .whole 3⟩, ⟨[.key "extra"], .table⟩,
        ⟨[.key "extra", .key "color"], .scalar (.text "red")⟩] := by decide
    have extra (k : Key) : leaves k.names [.key "extra"] = true := by cases k <;> decide
    have color (k : Key) : leaves k.names [.key "extra", .key "color"] = true := by
      cases k <;> decide
    rw [spots]
    simp only [List.forall_mem_cons]
    exact ⟨.above .pollInterval (by decide) (by decide), .setting rfl,
      .above .maxRetries (by decide) (by decide), .above .maxRetries (by decide) (by decide),
      .setting rfl, .other extra, .other color, nofun⟩

theorem Layer.within_sample : sample.Within := within_of_steps (by decide)

/-- A file that sets a delay beyond the signed numbers. -/
def Files.largeText : String := "[retry.list]\nmax_delay_ms = \"9223372036854775808\"\n"

def Files.large : Files := .ofList [("a.toml", largeText)]

def Layer.large : Layer := [("retry", .table (some "a.toml") (nodeOfFields [
  ("list", .table (some "a.toml") (nodeOfFields [
    ("max_delay_ms", .leaf (some "a.toml") (.text "9223372036854775808"))]))]))]

theorem Files.layer_large : large.layer "a.toml" = .ok Layer.large := by
  have there : large.get? "a.toml" = some largeText := by decide
  have read : Toml.read? (withoutMark largeText) = some (
      .more "retry" (.table .passed (.more "list" (.table .opened
        (.more "max_delay_ms" (.leaf .closed (.text "9223372036854775808")) .done)) .done))
        .done) := rfl
  rw [layer_of_plain (by decide) (by decide) there read]
  rfl

/-- An environment that names that file, sets how many attempts a list has and leaves the size of a
queue empty, and holds something else. -/
def Environment.sample : Environment := .ofList [
  (fileVariable, "a.toml"),
  ("INFORMER__RETRY__LIST__MAX_RETRIES", "7"),
  ("INFORMER__WATCH__EVENT_BUFFER_SIZE", ""),
  ("INFORMER__COLORS[2]__NAME", "blue")]

/-- What that environment assigns. -/
def Environment.sampleValues : Key → Option Nat
  | .maxRetries => some 7
  | _ => none

theorem Environment.assigns_sample : sample.Assigns sampleValues where
  small k n given := by
    cases k <;> cases given
    decide
  given k n given := by
    cases k <;> cases given
    exact ⟨("INFORMER__RETRY__LIST__MAX_RETRIES", "7"), by decide, by decide, writes_decimal 7⟩
  others := by
    have entries : sample.entries = [(fileVariable, "a.toml"),
      ("INFORMER__COLORS[2]__NAME", "blue"),
      ("INFORMER__RETRY__LIST__MAX_RETRIES", "7"),
      ("INFORMER__WATCH__EVENT_BUFFER_SIZE", "")] := by decide
    have file : pathOf? fileVariable = none := by decide
    have colors : pathOf? "INFORMER__COLORS[2]__NAME" =
        some [.key "colors", .place 2, .key "name"] := by decide
    have retries : pathOf? "INFORMER__RETRY__LIST__MAX_RETRIES" = some Key.maxRetries.path := by
      decide
    rw [entries]
    simp only [List.forall_mem_cons, file, colors, retries, Option.some.injEq]
    refine ⟨nofun, ?_, ?_, ?_, nofun⟩
    · rintro path rfl -
      exact .inr fun k => by cases k <;> decide
    · rintro path rfl -
      exact .inl ⟨.maxRetries, 7, rfl, rfl, writes_decimal 7⟩
    · intro path at_path text
      exact absurd rfl text

theorem Environment.within_sample : Layer.Within sample.layer := Layer.within_of_steps (by decide)

end Settings

namespace InformerConfig

variable {c : InformerConfig} {file : Layer} {environment : Environment}
  {fromFile fromEnvironment : Key → Option Nat}

/-- The values of settings under a file and an environment. -/
def layered (c : InformerConfig) (fromFile fromEnvironment : Key → Option Nat) (k : Key) : Nat :=
  (fromEnvironment k).getD ((fromFile k).getD (c.get k).toNat)

theorem layered_small (small : ∀ k, (c.get k).toNat < wordBound) (inFile : file.Assigns fromFile)
    (inEnvironment : environment.Assigns fromEnvironment) (k : Key) :
    c.layered fromFile fromEnvironment k < wordBound := by
  rw [layered]
  cases above : fromEnvironment k with
  | some n => exact inEnvironment.small k n above
  | none =>
      cases below : fromFile k with
      | some n => exact inFile.small k n below
      | none => exact small k

theorem layered_fits (small : ∀ k, (c.get k).toNat < wordBound) (inFile : file.Assigns fromFile)
    (inEnvironment : environment.Assigns fromEnvironment) (k : Key) :
    c.layered fromFile fromEnvironment k < UInt64.size :=
  Nat.lt_trans (layered_small small inFile inEnvironment k) (by decide)

/-- Values that are layered already stay under the same layers. -/
theorem layered_layered (fits : ∀ k, c.layered fromFile fromEnvironment k < UInt64.size) :
    (ofValues (c.layered fromFile fromEnvironment)).layered fromFile fromEnvironment =
      c.layered fromFile fromEnvironment := by
  funext k
  rw [layered, get_ofValues fits, layered]
  cases fromEnvironment k <;> cases fromFile k <;> rfl

theorem within_layerOf (c : InformerConfig) : c.layerOf.Within := by
  apply Layer.within_of_steps
  rw [c.spots_layerOf]
  simp [Key.path, Key.names, Step.Within]

theorem layAll_three (first second third : Layer) :
    layAll [first, second, third] = (layOn (.table none .done) first).bind fun node =>
      (layOn node second).bind fun node => layOn node third := by
  simp only [layAll, List.foldlM_cons, List.foldlM_nil, bind, pure, Option.bind_fun_some]

/-- Layers give the values of each setting, unless a place that they name cannot be reached. -/
theorem ofLayers_cases (small : ∀ k, (c.get k).toNat < wordBound) (inFile : file.Assigns fromFile)
    (inEnvironment : environment.Assigns fromEnvironment) :
    (ofLayers [c.layerOf, file, environment.layer] =
        .ok (.ofValues (c.layered fromFile fromEnvironment))) ∨
    (ofLayers [c.layerOf, file, environment.layer] = .error .noPlace ∧
      ¬ (file.Within ∧ environment.layer.Within)) := by
  obtain ⟨base, present⟩ :=
    (assigns_layerOf small).exists_layOn c.within_layerOf (.table none .done)
  rw [ofLayers, layAll_three, present, Option.bind_some]
  cases mid : layOn base file with
  | none =>
      refine .inr ⟨rfl, fun within => ?_⟩
      obtain ⟨next, laid⟩ := inFile.exists_layOn within.1 base
      cases mid.symm.trans laid
  | some node =>
      rw [Option.bind_some]
      cases last : layOn node environment.layer with
      | none =>
          refine .inr ⟨rfl, fun within => ?_⟩
          obtain ⟨next, laid⟩ := inEnvironment.layer.exists_layOn within.2 node
          cases last.symm.trans laid
      | some next =>
          have holds : Holds next (c.layered fromFile fromEnvironment) := by
            intro k
            rw [inEnvironment.layer.found?_layOn last, inFile.found?_layOn mid,
              (assigns_layerOf small).found?_layOn present, layered]
            cases fromEnvironment k <;> cases fromFile k <;> rfl
          exact .inl (ofNode_of_holds holds (layered_fits small inFile inEnvironment))

/-! ## Loading -/

/-- The layer of the file that an environment names, if it does. -/
def fileLayer (files : Files) (environment : Environment) : Except LoadFault Layer :=
  match environment.get? fileVariable with
  | some name => files.layer name
  | none => .ok []

theorem defaults_small (k : Key) : (({} : InformerConfig).get k).toNat < wordBound := by
  cases k <;> decide

theorem load_eq {files : Files} (named : fileLayer files environment = .ok file) :
    load files environment =
      ofLayers [({} : InformerConfig).layerOf, file, environment.layer] := by
  rw [load, toLayer_of_small defaults_small]
  rw [fileLayer] at named
  cases held : environment.get? fileVariable with
  | none =>
      rw [held] at named
      cases named
      rfl
  | some name =>
      rw [held] at named
      simp only [named, bind, Except.bind]

/-- **Settings are loaded field by field.** Each has the value of the environment, or else that of
the file, or else its default, unless something beside the settings lies at a place of a list that
is not within reach. -/
theorem loads_field_by_field (files : Files)
    (named : fileLayer files environment = .ok file) (inFile : file.Assigns fromFile)
    (inEnvironment : environment.Assigns fromEnvironment) :
    (∃ c, load files environment = .ok c ∧ ∀ k, (c.get k).toNat =
      (fromEnvironment k).getD ((fromFile k).getD (({} : InformerConfig).get k).toNat)) ∨
    (load files environment = .error .noPlace ∧
      ¬ (file.Within ∧ environment.layer.Within)) := by
  rw [load_eq named]
  have fits := layered_fits defaults_small inFile inEnvironment
  rcases ofLayers_cases defaults_small inFile inEnvironment with loaded | refused
  · exact .inl ⟨_, loaded, get_ofValues fits⟩
  · exact .inr refused

theorem fileLayer_sample : fileLayer .sample .sample = .ok Layer.sample := by
  have held : Catalog.get? Environment.sample fileVariable = some "a.toml" := by decide
  rw [fileLayer, held]
  exact Files.layer_sample

/-- The environment comes before the file, and the file before the defaults. -/
theorem sample_under_environment :
    ∃ c, load .sample .sample = .ok c ∧ c.get .pollInterval = 5 ∧ c.get .maxRetries = 7 ∧
      c.get .timeout = 60000 := by
  rcases loads_field_by_field .sample fileLayer_sample Layer.assigns_sample
    Environment.assigns_sample with ⟨c, loaded, values⟩ | ⟨-, beyond⟩
  · exact ⟨c, loaded, UInt64.toNat_inj.mp (values .pollInterval),
      UInt64.toNat_inj.mp (values .maxRetries), UInt64.toNat_inj.mp (values .timeout)⟩
  · exact absurd ⟨Layer.within_sample, Environment.within_sample⟩ beyond

/-- A variable with a path that is apart is not always without effect: a list takes the place of a
table on the way to a setting, and a place before the beginning of a list is out of reach. -/
theorem unknown_places_refused :
    (Environment.pathOf? "INFORMER__WATCH[5]" = some [.key "watch", .place 5] ∧
      Apart [.key "watch", .place 5] ∧
      (load .empty (.ofList [("INFORMER__WATCH[5]", "3")])).toOption = none) ∧
    (Environment.pathOf? "INFORMER__FOO[-1]" = some [.key "foo", .place (-1)] ∧
      Apart [.key "foo", .place (-1)] ∧
      (load .empty (.ofList [("INFORMER__FOO[-1]", "3")])).toOption = none) := by
  refine ⟨⟨by decide, ?_, by decide⟩, ⟨by decide, ?_, by decide⟩⟩
  · intro k
    cases k <;> decide
  · intro k
    cases k <;> decide

/-! ## Overriding -/

/-- Settings with a delay beyond the signed numbers. -/
def large : InformerConfig := { retry := ⟨{ maxDelayMs := 9223372036854775808 }⟩ }

theorem override_eq {files : Files} {name : String} (found : files.layer name = .ok file)
    (small : ∀ k, (c.get k).toNat < wordBound) :
    c.override files name environment = ofLayers [c.layerOf, file, environment.layer] := by
  simp only [override, toLayer_of_small small, found, bind, Except.bind]

/-- **Settings are overridden field by field if all of them are signed 64-bit numbers.** Each has
the value of the environment, or else that of the file, or else its own, so nothing changes if
these assign nothing, and nothing changes the second time. A setting that is larger is refused. -/
theorem overrides_field_by_field (c : InformerConfig) (files : Files) {name : String}
    (found : files.layer name = .ok file) (inFile : file.Assigns fromFile)
    (inEnvironment : environment.Assigns fromEnvironment)
    (within : file.Within ∧ environment.layer.Within) :
    ((∀ k, (c.get k).toNat < wordBound) →
      ∃ d, c.override files name environment = .ok d ∧
        (∀ k, (d.get k).toNat = (fromEnvironment k).getD ((fromFile k).getD (c.get k).toNat)) ∧
        d.override files name environment = .ok d ∧
        ((∀ k, fromFile k = none ∧ fromEnvironment k = none) → d = c)) ∧
    ((∃ k, wordBound ≤ (c.get k).toNat) →
      ∃ k, wordBound ≤ (c.get k).toNat ∧
        c.override files name environment = .error (.tooLarge (c.get k).toNat)) := by
  have overridden {c : InformerConfig} (small : ∀ k, (c.get k).toNat < wordBound) :
      c.override files name environment = .ok (.ofValues (c.layered fromFile fromEnvironment)) :=
    (override_eq found small).trans
      ((ofLayers_cases small inFile inEnvironment).resolve_right fun refused => refused.2 within)
  constructor
  · intro small
    have values := get_ofValues (layered_fits small inFile inEnvironment)
    have small' (k : Key) :
        ((ofValues (c.layered fromFile fromEnvironment)).get k).toNat < wordBound :=
      values k ▸ layered_small small inFile inEnvironment k
    refine ⟨_, overridden small, values, ?_, fun nothing => ?_⟩
    · rw [overridden small', layered_layered (layered_fits small inFile inEnvironment)]
    · refine eq_of_get_eq fun k => UInt64.toNat_inj.mp ?_
      rw [values, layered, (nothing k).1, (nothing k).2]
      rfl
  · intro large
    obtain ⟨k, large, refused⟩ := toLayer_of_large large
    refine ⟨k, large, ?_⟩
    rw [override, refused]
    rfl

/-- Settings are overridden by the file and the environment, and in the same way once more. -/
theorem sample_overrides_defaults :
    ∃ d, ({} : InformerConfig).override .sample "a.toml" .sample = .ok d ∧
      d.get .pollInterval = 5 ∧ d.get .maxRetries = 7 ∧ d.get .timeout = 60000 ∧
      d.override .sample "a.toml" .sample = .ok d := by
  obtain ⟨d, overridden, values, again, -⟩ := (overrides_field_by_field {} .sample
    Files.layer_sample Layer.assigns_sample Environment.assigns_sample
    ⟨Layer.within_sample, Environment.within_sample⟩).1
    defaults_small
  exact ⟨d, overridden, UInt64.toNat_inj.mp (values .pollInterval),
    UInt64.toNat_inj.mp (values .maxRetries), UInt64.toNat_inj.mp (values .timeout), again⟩

/-- The longest delay that a file may set and that nothing contradicts is too large for overriding
any setting. -/
theorem large_setting_refused :
    load .large (.ofList [(fileVariable, "a.toml")]) = .ok large ∧
      large.validate = .ok large ∧
      large.override .sample "a.toml" .empty = .error (.tooLarge 9223372036854775808) := by
  refine ⟨?_, rfl, rfl⟩
  have held : Catalog.get? (.ofList [(fileVariable, "a.toml")]) fileVariable =
    some "a.toml" := by decide
  have named : fileLayer .large (.ofList [(fileVariable, "a.toml")]) = .ok Layer.large := by
    rw [fileLayer, held]
    exact Files.layer_large
  rw [load_eq named]
  rfl

end InformerConfig

end BugFeed
