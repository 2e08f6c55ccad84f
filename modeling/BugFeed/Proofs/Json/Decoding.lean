import BugFeed.Json.Decode
import BugFeed.Proofs.Json.Reading
import BugFeed.Proofs.Time.Relaxed

/-!
# Decoders that undo what was written

A decoder undoes a way to write values if the trees that are written are whole and it takes each of
them back to its value. It then takes the text of the tree back to the value also
(`Undoes.decodeText_render`).

The simple decoders undo, and lists, maps and options of values are undone if the values are. A map
is undone because its keys come in ascending order, so that each entry is put behind those before it
(`Catalog.insertEntry_of_forall_lt`). For a record it is enough that every slot takes the value of
its member while it is free (`Fills`), since members with distinct names find their slots
(`find?_name`).
-/

namespace BugFeed

set_option autoImplicit false

namespace Catalog

/-- A key above all others is put behind them. -/
theorem insertEntry_of_forall_lt {α : Type} {key : String} {value : α} {es : List (String × α)}
    (h : ∀ e ∈ es, e.1 < key) : insertEntry key value es = es ++ [(key, value)] := by
  induction es with
  | nil => rfl
  | cons e es ih =>
      have below := h e List.mem_cons_self
      have apart : key ≠ e.1 := fun same => String.lt_irrefl key (same ▸ below)
      rw [insertEntry, if_neg (String.lt_asymm below), if_neg apart,
        ih fun d hd => h d (List.mem_cons_of_mem e hd), List.cons_append]

end Catalog

namespace Json

/-- The trees that `write` writes are whole, and the decoder takes each back to its value. -/
structure Undoes {α : Type} (decode : Decoder α) (write : α → Value) : Prop where
  whole : ∀ a, (write a).Whole
  back : ∀ a, decode (write a) = .ok a

variable {α : Type} {decode : Decoder α} {write : α → Value}

/-- **The text of a value is decoded as the value.** -/
theorem Undoes.decodeText_render (h : Undoes decode write) (a : α) :
    decodeText decode (write a).render = .ok a := by
  rw [decodeText, read_render (h.whole a)]
  simp [h.back a, bind, Except.bind, pure, Except.pure, skipBlanks]

/-! ## Simple values -/

theorem undoes_string : Undoes string Value.str where
  whole _ := True.intro
  back _ := rfl

theorem below_nat {n bound : Nat} (h : n < bound) : below bound (.nat n) = .ok n := by
  have fits : 0 ≤ (n : Int) ∧ (n : Int) < bound := ⟨Int.natCast_nonneg n, Int.ofNat_lt.mpr h⟩
  rw [Value.nat, Value.int, below, if_pos fits, Int.toNat_natCast]

theorem whole_nat {n : Nat} (h : n < UInt64.size) : (Value.nat n).Whole :=
  ⟨Int.natCast_nonneg n, Int.ofNat_lt.mpr h⟩

theorem undoes_word64 : Undoes word64 fun n : UInt64 => .nat n.toNat where
  whole n := whole_nat n.toNat_lt
  back n := by
    rw [word64, below_nat n.toNat_lt]
    exact congrArg Except.ok UInt64.ofNat_toNat

theorem undoes_word16 : Undoes word16 fun n : UInt16 => .nat n.toNat where
  whole n := whole_nat (Nat.lt_trans n.toNat_lt (by decide))
  back n := by
    rw [word16, below_nat n.toNat_lt]
    exact congrArg Except.ok UInt16.ofNat_toNat

/-- Instants are undone in the relaxed form. -/
theorem undoes_instant : Undoes instant fun t : Instant => .str t.displayFull where
  whole _ := True.intro
  back t := by
    rw [instant, undoes_string.back]
    simp only [bind, Except.bind, Relaxed.read_displayFull]
    rfl

theorem str_ne_null (s : String) : Value.str s ≠ .null := nofun

/-- An option is undone if no value is written as null. -/
theorem undoes_optional (h : Undoes decode write) (shown : ∀ a, write a ≠ .null) :
    Undoes (optional decode) fun o => .ofOption (o.map write) where
  whole o := by
    cases o with
    | none => exact True.intro
    | some a => exact h.whole a
  back o := by
    cases o with
    | none => rfl
    | some a =>
        rw [Option.map_some, Value.ofOption, optional]
        · rw [h.back a]
          rfl
        · exact shown a

/-! ## Lists and maps -/

theorem whole_ofList {vs : List Value} (h : ∀ v ∈ vs, v.Whole) : (Value.ofList vs).Whole := by
  induction vs with
  | nil => exact True.intro
  | cons v vs ih =>
      exact ⟨h v List.mem_cons_self, ih fun w hw => h w (List.mem_cons_of_mem v hw)⟩

theorem whole_ofMembers {ms : List (String × Value)} (h : ∀ m ∈ ms, m.2.Whole) :
    (Value.ofMembers ms).Whole := by
  induction ms with
  | nil => exact True.intro
  | cons m ms ih =>
      exact ⟨h m List.mem_cons_self, ih fun n hn => h n (List.mem_cons_of_mem m hn)⟩

theorem undoes_listOf (h : Undoes decode write) :
    Undoes (listOf decode) fun as => .ofList (as.map write) where
  whole as := whole_ofList fun v hv => by
    obtain ⟨a, -, rfl⟩ := List.mem_map.mp hv
    exact h.whole a
  back as := by
    rw [Value.ofList, listOf]
    induction as with
    | nil => rfl
    | cons a as ih =>
        rw [List.map_cons, Items.ofList, Items.decode, h.back a, ih]
        rfl

/-- Entries whose keys ascend are put behind those that are there. -/
theorem decode_entries (h : Undoes decode write) (es : List (String × α)) (c : Catalog α)
    (ordered : (c.entries ++ es).Pairwise fun a b => a.1 < b.1) :
    ∃ d, (Members.ofList (es.map fun e => (e.1, write e.2))).decode decode c = .ok d ∧
      d.entries = c.entries ++ es := by
  induction es generalizing c with
  | nil => exact ⟨c, rfl, (List.append_nil _).symm⟩
  | cons e es ih =>
      have above : ∀ d ∈ c.entries, d.1 < e.1 := fun d hd =>
        (List.pairwise_append.mp ordered).2.2 d hd e List.mem_cons_self
      have put : (c.insert e.1 e.2).entries = c.entries ++ [e] :=
        Catalog.insertEntry_of_forall_lt above
      obtain ⟨d, read, entries⟩ := ih (c.insert e.1 e.2) (by
        rw [put, List.append_assoc]
        exact ordered)
      refine ⟨d, ?_, ?_⟩
      · rw [List.map_cons, Members.ofList, Members.decode, h.back e.2]
        exact read
      · rw [entries, put, List.append_assoc, List.singleton_append]

theorem undoes_catalogOf (h : Undoes decode write) :
    Undoes (catalogOf decode) fun c => .ofMembers (c.entries.map fun e => (e.1, write e.2)) where
  whole c := whole_ofMembers fun m hm => by
    obtain ⟨e, -, rfl⟩ := List.mem_map.mp hm
    exact h.whole e.2
  back c := by
    obtain ⟨d, read, entries⟩ := decode_entries h c.entries .empty c.ordered
    rw [Value.ofMembers, catalogOf, read, Catalog.eq_of_entries_eq entries]

/-! ## Records -/

variable {δ : Type}

/-- Members that fill their slots: they come in the order of the slots, some of which may be left
out, and every slot is free before it takes the value that was written for it. -/
inductive Fills : List (Slot δ) → List (String × Value) → δ → δ → Prop where
  | done (slots : List (Slot δ)) (d : δ) : Fills slots [] d d
  | next {β : Type} {name : String} {get : δ → Option β} {put : δ → β → δ} {decode : Decoder β}
      {write : β → Value} {slots : List (Slot δ)} {members : List (String × Value)} {d f : δ}
      (h : Undoes decode write) (b : β) (free : get d = none)
      (rest : Fills slots members (put d b) f) :
      Fills (slot name get put decode :: slots) ((name, write b) :: members) d f
  | skip {s : Slot δ} {slots : List (Slot δ)} {members : List (String × Value)} {d f : δ}
      (rest : Fills slots members d f) : Fills (s :: slots) members d f

theorem Fills.whole {slots : List (Slot δ)} {members : List (String × Value)} {d f : δ}
    (fills : Fills slots members d f) : (Value.ofMembers members).Whole := by
  induction fills with
  | done slots d => exact True.intro
  | next h b _ _ ih => exact ⟨h.whole b, ih⟩
  | skip _ ih => exact ih

/-- Slots with distinct names are found by them. -/
theorem find?_name {slots : List (Slot δ)} (distinct : (slots.map Slot.name).Nodup) {s : Slot δ}
    (known : s ∈ slots) : (slots.find? fun t => t.name == s.name) = some s := by
  induction slots with
  | nil => cases known
  | cons t slots ih =>
      obtain ⟨apart, distinct⟩ := List.nodup_cons.mp distinct
      rcases List.mem_cons.mp known with rfl | known
      · exact List.find?_cons_of_pos (beq_self_eq_true s.name)
      · have other : t.name ≠ s.name := fun same => apart (same ▸ List.mem_map_of_mem known)
        rw [List.find?_cons_of_neg (by rwa [beq_iff_eq]), ih distinct known]

/-- The members find their slots among all that the record has. -/
theorem Fills.fill {slots : List (Slot δ)} (distinct : (slots.map Slot.name).Nodup)
    {part : List (Slot δ)} {members : List (String × Value)} {d f : δ}
    (fills : Fills part members d f) (known : part ⊆ slots) :
    (Members.ofList members).fill slots d = .ok f := by
  induction fills with
  | done part d => rfl
  | @next β name get put decode write part members d f h b free _ ih =>
      have found : (slots.find? fun t => t.name == name) = some (slot name get put decode) :=
        find?_name distinct (known List.mem_cons_self)
      have vacant : (slot name get put decode).filled d = false := by
        simp only [slot, free, Option.isSome_none]
      have taken : (slot name get put decode).fill d (write b) = .ok (put d b) := by
        simp only [slot, h.back b, Functor.map, Except.map]
      rw [Members.ofList, Members.fill]
      simp only [found, vacant, taken, bind, Except.bind]
      exact ih (List.subset_of_cons_subset known)
  | skip _ ih => exact ih (List.subset_of_cons_subset known)

/-- A record is undone if its members fill its slots and make up a draft that describes it. -/
theorem undoes_recordOf {slots : List (Slot δ)} (distinct : (slots.map Slot.name).Nodup)
    {blank : δ} {finish : δ → Except Problem α} {members : α → List (String × Value)}
    (draft : α → δ) (fills : ∀ a, Fills slots (members a) blank (draft a))
    (described : ∀ a, finish (draft a) = .ok a) :
    Undoes (recordOf slots blank finish) fun a => .ofMembers (members a) where
  whole a := (fills a).whole
  back a := by
    rw [Value.ofMembers, recordOf, (fills a).fill distinct (List.Subset.refl slots), ← described a]
    rfl

/-! ## Variants -/

/-- A variant with a value is decoded as its value is. -/
theorem oneOf_carries {variants : List (String × Content α)} {key : String} {v : Value} {a : α}
    (known : variants.lookup key = some (.carries decode)) (back : decode v = .ok a) :
    oneOf variants (.ofMembers [(key, v)]) = .ok a := by
  simp only [Value.ofMembers, Members.ofList, oneOf, known, Content.decode, back, bind,
    Except.bind, pure, Except.pure]

end Json

end BugFeed
