import BugFeed.Settings.Typed

/-!
# What a layer does to a setting

A layer mentions trees at paths, and each of them mentions the tables, lists and scalars that it is
made of (`Layer.spots`). What stands under some names is changed by a layer only where it mentions
something at just these names, and then the last such thing stands there (`found?_layOn`). This
holds if the layer suits the names: what it mentions on their way is a table, what it mentions at
them is none, and every other path leaves their way at a name. A list on their way, or a scalar,
would take the place of a table that holds the setting.

A layer is refused only for a place of a list that cannot be reached (`exists_layOn`).
-/

namespace BugFeed.Settings

set_option autoImplicit false

/-- What stands where some names lead to, if they lead anywhere. -/
def Setting.found? : List String → Node → Option Finding
  | [], node => some (finding node)
  | name :: names, node => (node.key? name).bind fun below => below.found? names

/-! ## What a layer mentions -/

/-- Something that a layer mentions: the path where it lies and what is found there. A table is
mentioned without its entries; they are mentioned by themselves. -/
structure Spot where
  path : Path
  finding : Finding
  deriving DecidableEq

/-- The same thing in a tree that lies at the end of some steps. -/
def Spot.under (steps : Path) (s : Spot) : Spot := ⟨steps ++ s.path, s.finding⟩

mutual

/-- What a tree mentions. -/
def Setting.spots : Node → List Spot
  | .leaf _ value => [⟨[], .scalar value⟩]
  | .list _ _ => [⟨[], .list⟩]
  | .table _ entries => ⟨[], .table⟩ :: entries.spots

/-- What the entries of a table mention. -/
def Entries.spots : Entries Origin → List Spot
  | .done => []
  | .more key value tail => value.spots.map (Spot.under [.key (lowercase key)]) ++ tail.spots

end

/-- The path with its last name in small letters, which is where `layAt` puts a value. -/
def Path.landing : Path → Path
  | [] => []
  | [.key name] => [.key (lowercase name)]
  | step :: path => step :: landing path

/-- What a layer mentions, in the order in which it is laid. -/
def Layer.spots (layer : Layer) : List Spot :=
  layer.flatMap fun e => e.2.spots.map (Spot.under (Path.ofKey e.1).landing)

theorem Setting.spots_ne_nil (node : Node) : node.spots ≠ [] := by
  cases node <;> simp only [spots, ne_eq, List.cons_ne_nil, not_false_eq_true]

/-! ## What suits a setting -/

/-- Whether a thing at a path leaves the names to what they lead to: it is a table on their way, no
table at their end, or leaves their way at a name. -/
def Suits : List String → Path → Finding → Prop
  | [], [], f => f ≠ .table
  | [], _ :: _, _ => False
  | _ :: _, [], f => f = .table
  | name :: names, .key a :: path, f => a = name → Suits names path f
  | _ :: _, .place _ :: _, _ => False

def Spot.Suits (names : List String) (s : Spot) : Prop := Settings.Suits names s.path s.finding

/-- What is no table suits no names but those that end there. -/
theorem eq_nil_of_suits {names : List String} {f : Finding} (h : Suits names [] f)
    (shown : f ≠ .table) : names = [] := by
  cases names with
  | nil => rfl
  | cons name names => exact absurd h shown

/-- A table suits names only on their way. -/
theorem exists_cons_of_suits {names : List String} (h : Suits names [] .table) :
    ∃ name rest, names = name :: rest := by
  cases names with
  | nil => exact absurd rfl h
  | cons name rest => exact ⟨name, rest, rfl⟩

/-- What stands under names after something is mentioned, if it suits them. -/
def Spot.landOn (names : List String) (f : Option Finding) (s : Spot) : Option Finding :=
  if s.path = names.map .key then some s.finding else f

/-- What stands under names after some things are mentioned. -/
def landed (names : List String) (f : Option Finding) (spots : List Spot) : Option Finding :=
  spots.foldl (Spot.landOn names) f

theorem landed_append (names : List String) (f : Option Finding) (xs ys : List Spot) :
    landed names f (xs ++ ys) = landed names (landed names f xs) ys := by
  exact List.foldl_append

/-- Below a name, things land as they do without it. -/
theorem landed_under_self (name : String) (names : List String) (path : Path)
    (f : Option Finding) (spots : List Spot) :
    landed (name :: names) f (spots.map (Spot.under (.key name :: path))) =
      landed names f (spots.map (Spot.under path)) := by
  have lands (g : Option Finding) (s : Spot) :
      (s.under (.key name :: path)).landOn (name :: names) g = (s.under path).landOn names g := by
    simp only [Spot.landOn, Spot.under, List.cons_append, List.map_cons, List.cons.injEq, true_and]
    rfl
  simp only [landed, List.foldl_map, lands]

/-- Below another name, nothing lands. -/
theorem landed_under_ne {name a : String} (h : a ≠ name) (names : List String) (path : Path)
    (f : Option Finding) (spots : List Spot) :
    landed (name :: names) f (spots.map (Spot.under (.key a :: path))) = f := by
  induction spots with
  | nil => rfl
  | cons s spots ih =>
      have apart : (s.under (.key a :: path)).path ≠ (name :: names).map .key := by
        intro same
        exact h (Step.key.inj (List.cons.inj same).1)
      rw [List.map_cons, landed, List.foldl_cons, Spot.landOn, if_neg apart]
      exact ih

theorem landed_nil_under (names : List String) (f : Option Finding) (spots : List Spot) :
    landed names f (spots.map (Spot.under [])) = landed names f spots := by
  have same : Spot.under [] = id := rfl
  rw [same, List.map_id]

/-- Things that do not lie at the names change nothing there. -/
theorem landed_of_apart {names : List String} {spots : List Spot}
    (apart : ∀ s ∈ spots, s.path ≠ names.map .key) (f : Option Finding) :
    landed names f spots = f := by
  induction spots with
  | nil => rfl
  | cons s spots ih =>
      rw [landed, List.foldl_cons, Spot.landOn, if_neg (apart s List.mem_cons_self)]
      exact ih fun t ht => apart t (List.mem_cons_of_mem s ht)

/-- Of things that are all alike at the names, one stands there if one is mentioned. -/
theorem landed_of_mem {names : List String} {g : Finding} {spots : List Spot}
    (alike : ∀ s ∈ spots, s.path = names.map .key → s.finding = g)
    (there : ⟨names.map .key, g⟩ ∈ spots) (f : Option Finding) : landed names f spots = some g := by
  induction spots generalizing f with
  | nil => cases there
  | cons s spots ih =>
      have alike' := fun t ht => alike t (List.mem_cons_of_mem s ht)
      rw [landed, List.foldl_cons]
      by_cases more : ⟨names.map .key, g⟩ ∈ spots
      · exact ih alike' more _
      · obtain rfl : ⟨names.map .key, g⟩ = s := (List.mem_cons.mp there).resolve_right more
        rw [Spot.landOn, if_pos rfl]
        refine landed_of_apart (fun t ht same => more ?_) _
        obtain rfl := alike' t ht same
        rw [← same]
        exact ht

/-! ## Putting values under keys -/

theorem Setting.key?_setKey (node value : Node) (key name : String) :
    (node.setKey key value).key? name = if name = key then some value else node.key? name :=
  Entries.get?_set key name value _

theorem Setting.found?_setKey_self (node value : Node) (name : String) (names : List String) :
    (node.setKey name value).found? (name :: names) = value.found? names := by
  rw [found?, key?_setKey, if_pos rfl]
  rfl

theorem Setting.found?_setKey_of_ne (node value : Node) {key name : String} (h : name ≠ key)
    (names : List String) :
    (node.setKey key value).found? (name :: names) = node.found? (name :: names) := by
  rw [found?, key?_setKey, if_neg h]
  rfl

/-- Names lead through what stands under the first of them. -/
theorem Setting.found?_getD_key? {node default : Node} {name next : String} {rest : List String}
    (empty : default.found? (next :: rest) = none) :
    ((node.key? name).getD default).found? (next :: rest) = node.found? (name :: next :: rest) := by
  have through : node.found? (name :: next :: rest) =
      (node.key? name).bind fun below => below.found? (next :: rest) := rfl
  rw [through]
  cases node.key? name with
  | none => exact empty
  | some below => rfl

/-! ## Laying values -/

mutual

/-- After a value is laid under a key, what it mentions at the names stands there. -/
theorem Setting.found?_lay (value node : Node) (key : String) {name : String}
    {names : List String} (suits : lowercase key = name → ∀ s ∈ value.spots, s.Suits names) :
    (node.lay key value).found? (name :: names) =
      landed (name :: names) (node.found? (name :: names))
        (value.spots.map (Spot.under [.key (lowercase key)])) := by
  by_cases here : lowercase key = name
  · subst here
    have suits := suits rfl
    rw [landed_under_self, landed_nil_under]
    match value with
    | .leaf origin v =>
        rw [eq_nil_of_suits (suits _ List.mem_cons_self) nofun, Setting.lay,
          Setting.found?_setKey_self]
        rfl
    | .list origin items =>
        rw [eq_nil_of_suits (suits _ List.mem_cons_self) nofun, Setting.lay,
          Setting.found?_setKey_self]
        rfl
    | .table origin entries =>
        obtain ⟨next, rest, rfl⟩ := exists_cons_of_suits (suits _ List.mem_cons_self)
        rw [Setting.lay, Setting.found?_setKey_self,
          Entries.found?_layOver entries _ fun s hs => suits s (List.mem_cons_of_mem _ hs),
          Setting.found?_getD_key? rfl]
        rfl
  · rw [landed_under_ne here]
    match value with
    | .leaf _ _ => exact Setting.found?_setKey_of_ne _ _ (Ne.symm here) _
    | .list _ _ => exact Setting.found?_setKey_of_ne _ _ (Ne.symm here) _
    | .table _ _ => exact Setting.found?_setKey_of_ne _ _ (Ne.symm here) _

/-- After entries are laid over a node, what they mention at the names stands there. -/
theorem Entries.found?_layOver (entries : Entries Origin) (node : Node) {name : String}
    {names : List String} (suits : ∀ s ∈ entries.spots, s.Suits (name :: names)) :
    (entries.layOver node).found? (name :: names) =
      landed (name :: names) (node.found? (name :: names)) entries.spots := by
  match entries with
  | .done => rfl
  | .more key value tail =>
      rw [Entries.layOver, Entries.spots, landed_append,
        Entries.found?_layOver tail _ fun s hs => suits s (List.mem_append_right _ hs),
        Setting.found?_lay value node key fun here s hs =>
          suits _ (List.mem_append_left _ (List.mem_map_of_mem hs)) here]

end

/-! ## Laying values at paths -/

/-- Whether a step leads somewhere from every node: a place below zero may lie before the beginning
of a list. -/
def Step.Within : Step → Prop
  | .key _ => True
  | .place i => 0 ≤ i ∧ i < lengthBound

instance (step : Step) : Decidable step.Within :=
  match step with
  | .key _ => .isTrue trivial
  | .place _ => inferInstanceAs (Decidable (_ ∧ _))

theorem Path.landing_cons_cons (step next : Step) (path : Path) :
    landing (step :: next :: path) = step :: landing (next :: path) := by
  cases step <;> rfl

theorem Path.exists_landing_cons (step : Step) (path : Path) :
    ∃ first rest, landing (step :: path) = first :: rest := by
  cases path with
  | nil => cases step <;> exact ⟨_, _, rfl⟩
  | cons next path => exact ⟨step, landing (next :: path), landing_cons_cons step next path⟩

theorem Path.place_mem_landing {i : Int} {path : Path} (h : Step.place i ∈ path) :
    Step.place i ∈ landing path := by
  induction path with
  | nil => cases h
  | cons step path ih =>
      cases path with
      | nil =>
          cases List.mem_singleton.mp h
          exact List.mem_singleton.mpr rfl
      | cons next path =>
          rw [landing_cons_cons]
          exact List.mem_cons.mpr ((List.mem_cons.mp h).imp_right ih)

theorem placeOf?_of_within {length : Nat} {i : Int} (h : (Step.place i).Within) :
    placeOf? length i = some i.toNat := by
  obtain ⟨least, most⟩ := h
  rw [placeOf?, if_neg (Int.not_lt.mpr least), if_pos ⟨least, most⟩]

/-- A path within reach is reached. -/
theorem exists_layAt (value : Node) {path : Path} (within : ∀ step ∈ path, step.Within)
    (node : Node) :
    ∃ next, layAt value path node = some next := by
  induction path generalizing node with
  | nil => exact ⟨value, rfl⟩
  | cons step path ih =>
      obtain ⟨first, rest⟩ := List.forall_mem_cons.mp within
      cases step with
      | key name =>
          cases path with
          | nil => exact ⟨node.lay name value, rfl⟩
          | cons next path =>
              obtain ⟨below, laid⟩ := ih rest ((node.key? name).getD .blank)
              exact ⟨node.setKey name below, by rw [layAt, laid, Option.map_some]; exact nofun⟩
      | place i =>
          obtain ⟨item, laid⟩ := ih rest ((node.asList.2.get? i.toNat).getD .blank)
          refine ⟨.list node.asList.1 (node.asList.2.put .blank i.toNat item), ?_⟩
          simp only [layAt, placeOf?_of_within first, laid, bind,
            Option.bind_some]

/-- After a value is laid at a path, what it mentions at the names stands there. -/
theorem found?_layAt (value : Node) {path : Path} (begun : path ≠ []) {node next : Node}
    {name : String} {names : List String}
    (suits : ∀ s ∈ value.spots, (s.under path.landing).Suits (name :: names))
    (laid : layAt value path node = some next) :
    next.found? (name :: names) =
      landed (name :: names) (node.found? (name :: names))
        (value.spots.map (Spot.under path.landing)) := by
  -- Some thing is mentioned, and it tells how the path goes on from the names.
  obtain ⟨s, hs⟩ := List.exists_mem_of_ne_nil _ value.spots_ne_nil
  induction path generalizing node next name names with
  | nil => exact absurd rfl begun
  | cons step path ih =>
      match step, path with
      | .key key, [] =>
          cases laid
          exact Setting.found?_lay value node key fun here s hs => suits s hs here
      | .key key, step :: path =>
          obtain ⟨item, reached, rfl⟩ := Option.map_eq_some_iff.mp laid
          rw [Path.landing_cons_cons] at suits ⊢
          by_cases here : key = name
          · subst here
            rw [Setting.found?_setKey_self, landed_under_self]
            cases names with
            | nil =>
                have ended := suits s hs rfl
                obtain ⟨first, steps, landing⟩ := Path.exists_landing_cons step path
                rw [landing] at ended
                cases ended
            | cons name names =>
                rw [ih nofun (fun s hs => suits s hs rfl) reached, Setting.found?_getD_key? rfl]
          · rw [Setting.found?_setKey_of_ne _ _ (Ne.symm here), landed_under_ne here]
      | .place i, [] => cases suits s hs
      | .place i, step :: path => cases suits s hs

/-! ## Laying layers -/

/-- A layer within reach is laid. -/
theorem exists_layOn {layer : Layer} (within : ∀ e ∈ layer, ∀ step ∈ Path.ofKey e.1, step.Within)
    (node : Node) : ∃ next, layOn node layer = some next := by
  induction layer generalizing node with
  | nil => exact ⟨node, rfl⟩
  | cons e layer ih =>
      obtain ⟨mid, first⟩ := exists_layAt e.2 (within e List.mem_cons_self) node
      obtain ⟨next, rest⟩ := ih (fun d hd => within d (List.mem_cons_of_mem e hd)) mid
      exact ⟨next, by rw [layOn, List.foldlM_cons, first]; exact rest⟩

theorem Path.ofKey_ne_nil (key : String) : ofKey key ≠ [] := by
  cases named : readName? key.toList with
  | none => simp [ofKey, named]
  | some p => cases read : readSteps? p.2.length p.2 <;> simp [ofKey, named, read]

/-- After a layer is laid, the last thing that it mentions at the names stands there. -/
theorem found?_layOn {layer : Layer} {node next : Node} {name : String} {names : List String}
    (suits : ∀ s ∈ layer.spots, s.Suits (name :: names)) (laid : layOn node layer = some next) :
    next.found? (name :: names) =
      landed (name :: names) (node.found? (name :: names)) layer.spots := by
  induction layer generalizing node with
  | nil =>
      cases laid
      rfl
  | cons e layer ih =>
      rw [layOn, List.foldlM_cons] at laid
      obtain ⟨mid, first, rest⟩ := Option.bind_eq_some_iff.mp laid
      rw [Layer.spots, List.flatMap_cons] at suits ⊢
      rw [landed_append, ih (fun s hs => suits s (List.mem_append_right _ hs)) rest,
        found?_layAt e.2 (Path.ofKey_ne_nil e.1)
          (fun s hs => suits _ (List.mem_append_left _ (List.mem_map_of_mem hs))) first]
      rfl

end BugFeed.Settings
