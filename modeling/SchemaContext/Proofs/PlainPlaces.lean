import SchemaContext.Proofs.PlainEquality
import SchemaContext.Proofs.MappingKeys
import SchemaContext.Record.Given

/-!
# Places in plain data

A place says how to come from a value to one inside it, part by part. The plain data of a
value has the same places, and behind the fields of a record also those of what is derived.
At each place stands what stood there: leaves as they are, sequences with as many items,
mappings with the same keys. Nothing in it is left to be turned into plain data.
-/

namespace SchemaContext

namespace Value

/-- The value at a place inside another: the number of a part, then a place inside that part. -/
def at? (v : Value) : List Nat → Option Value
  | [] => some v
  | n :: place => v.parts[n]?.bind fun w => w.at? place

section Places

variable {v w : Value} {place : List Nat}

theorem occurs_iff_at : w.Occurs v ↔ ∃ place, v.at? place = some w := by
  constructor
  · intro h
    induction h with
    | here => exact ⟨[], rfl⟩
    | inside mem _ ih =>
      obtain ⟨place, hplace⟩ := ih
      obtain ⟨n, hn⟩ := List.mem_iff_getElem?.1 mem
      exact ⟨n :: place, by rw [at?, hn, Option.bind_some, hplace]⟩
  · rintro ⟨place, hplace⟩
    induction place generalizing v with
    | nil =>
      cases hplace
      exact .here
    | cons n place ih =>
      obtain ⟨part, hpart, hrest⟩ := Option.bind_eq_some_iff.1 hplace
      exact .inside (List.mem_of_getElem? hpart) (ih hrest)

theorem at?_bool {b : Bool} (h : (bool b).at? place = some w) : place = [] ∧ w = bool b := by
  cases place with
  | nil =>
    cases h
    exact ⟨rfl, rfl⟩
  | cons n place => cases h

/-- What stands at a place stands there in the plain data, as plain data. -/
theorem at?_toPlain (h : v.at? place = some w) : v.toPlain.at? place = some w.toPlain := by
  induction place generalizing v with
  | nil =>
    cases h
    rfl
  | cons n place ih =>
    obtain ⟨part, hpart, hrest⟩ := Option.bind_eq_some_iff.1 h
    obtain ⟨hn, -⟩ := List.getElem?_eq_some_iff.1 hpart
    have hplain : v.toPlain.parts[n]? = some part.toPlain := by
      rw [parts_toPlain, List.getElem?_append_left (by rwa [List.length_map]), List.getElem?_map,
        hpart, Option.map_some]
    rw [at?, hplain, Option.bind_some, ih hrest]

/-- A place behind the fields of a record, where the value itself has nothing. -/
def DerivedAt (v : Value) (place : List Nat) : Prop :=
  ∃ before n cls fields, place = before ++ [n] ∧ v.at? before = some (record cls fields) ∧
    fields.length ≤ n

theorem exists_bool_of_mem_derivedParts (h : w ∈ v.derivedParts) :
    ∃ cls fields b, v = record cls fields ∧ w = bool b := by
  cases v with
  | record cls fields =>
    obtain ⟨e, he, rfl⟩ := List.mem_map.1 h
    obtain ⟨d, -, rfl⟩ := List.mem_map.1 he
    exact ⟨cls, fields, _, rfl, rfl⟩
  | _ => cases h

/-- Nothing else stands in plain data than what stood at the place, as plain data, and the truth
values that are derived. -/
theorem at?_of_toPlain {u : Value} (h : v.toPlain.at? place = some u) :
    (∃ w, v.at? place = some w ∧ u = w.toPlain) ∨ v.DerivedAt place ∧ ∃ b, u = bool b := by
  induction place generalizing v with
  | nil =>
    cases h
    exact .inl ⟨v, rfl, rfl⟩
  | cons n place ih =>
    obtain ⟨part, hpart, hrest⟩ := Option.bind_eq_some_iff.1 h
    rw [parts_toPlain] at hpart
    -- a part of the plain data comes from a part of the value, or it is derived
    rcases Nat.lt_or_ge n v.parts.length with hn | hn
    · rw [List.getElem?_append_left (by rwa [List.length_map]), List.getElem?_map] at hpart
      obtain ⟨w, hw, rfl⟩ := Option.map_eq_some_iff.1 hpart
      rcases ih hrest with ⟨x, hx, rfl⟩ | ⟨⟨before, m, cls, fields, rfl, hrecord, hm⟩, hb⟩
      · exact .inl ⟨x, by rw [at?, hw, Option.bind_some, hx], rfl⟩
      · refine .inr ⟨⟨n :: before, m, cls, fields, rfl, ?_, hm⟩, hb⟩
        rw [at?, hw, Option.bind_some, hrecord]
    · rw [List.getElem?_append_right (by rwa [List.length_map])] at hpart
      obtain ⟨cls, fields, b, rfl, rfl⟩ :=
        exists_bool_of_mem_derivedParts (List.mem_of_getElem? hpart)
      obtain ⟨rfl, rfl⟩ := at?_bool hrest
      rw [parts, Entries.values, List.length_map] at hn
      exact .inr ⟨⟨[], n, cls, fields, rfl, rfl, hn⟩, b, rfl⟩

end Places

theorem isPlain_toPlain (v : Value) : v.toPlain.IsPlain := by
  intro u hu
  obtain ⟨place, hplace⟩ := occurs_iff_at.1 hu
  rcases at?_of_toPlain hplace with ⟨w, -, rfl⟩ | ⟨-, b, rfl⟩
  · exact isPlainSort_toPlain w
  · rfl

theorem IsPlain.plain_eq {v : Value} (h : v.IsPlain) : v.plain = .ok v := by
  rw [plain, lengthless?_eq_none_iff_sized.2 h.sized, h.toPlain_eq]

/-- What has neither items nor entries nor fields, whatever it may stand for. -/
def isLeaf : Value → Bool
  | list _ | tuple _ | dict _ | frozen _ | record _ _ | object _ _ => false
  | _ => true

/-- How what stands at a place is kept in plain data: a leaf as it is, a sequence as a list of as
many items, a mapping as a dictionary of the same keys in the same order, and an object as a
dictionary of the names of its fields, those that its class derives behind them if it is a
record. -/
inductive KeptAs : Value → Value → Prop
  | leaf {v : Value} (leaf : v.isLeaf = true) : KeptAs v v
  | list {items others : List Value} (length : others.length = items.length) :
      KeptAs (list items) (list others)
  | tuple {items others : List Value} (length : others.length = items.length) :
      KeptAs (tuple items) (list others)
  | dict {entries others : Mapping} (keys : others.keys = entries.keys) :
      KeptAs (dict entries) (dict others)
  | frozen {entries others : Mapping} (keys : others.keys = entries.keys) :
      KeptAs (frozen entries) (dict others)
  | object {cls : String} {fields others : Entries Value} (keys : others.keys = fields.keys) :
      KeptAs (object cls fields) (ofEntries others)
  | record {cls : RecordClass} {fields others : Entries Value}
      (keys : others.keys = fields.keys ++ cls.derived.map Prod.fst) :
      KeptAs (record cls fields) (ofEntries others)

theorem keys_map_toPlain (entries : Mapping) :
    Mapping.keys (entries.map fun e => (e.1, e.2.toPlain)) = entries.keys := by
  simp [Mapping.keys]

theorem keptAs_toPlain (v : Value) : v.KeptAs v.toPlain := by
  cases v with
  | list items =>
    rw [toPlain, toPlainItems_eq_map]
    exact .list (List.length_map _)
  | tuple items =>
    rw [toPlain, toPlainItems_eq_map]
    exact .tuple (List.length_map _)
  | dict entries =>
    rw [toPlain, toPlainEntries_eq_map]
    exact .dict (keys_map_toPlain entries)
  | frozen entries =>
    rw [toPlain, toPlainEntries_eq_map]
    exact .frozen (keys_map_toPlain entries)
  | object cls fields =>
    rw [toPlain, toPlainFields_eq_mapValues]
    exact .object (Entries.keys_mapValues _ _)
  | record cls fields =>
    rw [toPlain, toPlainFields_eq_mapValues]
    refine .record ?_
    rw [Entries.keys_append, Entries.keys_mapValues, derivedEntries_keys]
  | _ => exact .leaf rfl

def KeyedHere : Value → Prop
  | dict entries | frozen entries => Mapping.Distinct entries
  | record cls fields => Entries.keys fields = cls.fields.keys
  | object _ fields => Entries.Distinct fields
  | _ => True

/-- All that occurs in a value has the keys, names or fields that it should. -/
def Keyed (v : Value) : Prop := ∀ w : Value, w.Occurs v → w.KeyedHere

theorem keyed_iff (v : Value) : v.Keyed ↔ v.KeyedHere ∧ ∀ w ∈ v.parts, w.Keyed :=
  forall_occurs_iff

theorem keyedHere_toPlain {v : Value} (h : v.KeyedHere) : v.toPlain.KeyedHere := by
  cases v with
  | dict entries | frozen entries =>
    rw [toPlain, toPlainEntries_eq_map, KeyedHere, Mapping.Distinct, keys_map_toPlain]
    exact h
  | object cls fields =>
    rw [toPlain, toPlainFields_eq_mapValues]
    refine Mapping.distinct_ofEntries ?_
    rw [Entries.Distinct, Entries.keys_mapValues]
    exact h
  | record cls fields =>
    rw [toPlain, toPlainFields_eq_mapValues]
    refine Mapping.distinct_ofEntries ?_
    have hfields : Entries.keys fields = cls.fields.keys := h
    rw [Entries.Distinct, Entries.keys_append, Entries.keys_mapValues, hfields, derivedEntries_keys]
    exact cls.nodup_keys
  | list items | tuple items => exact trivial
  | _ => exact h

theorem Keyed.toPlain {v : Value} (h : v.Keyed) : v.toPlain.Keyed := by
  intro u hu
  obtain ⟨place, hplace⟩ := occurs_iff_at.1 hu
  rcases at?_of_toPlain hplace with ⟨w, hw, rfl⟩ | ⟨-, b, rfl⟩
  · exact keyedHere_toPlain (h w (occurs_iff_at.2 ⟨place, hw⟩))
  · exact trivial

/-- Plain data is made of every value in which each record has something to measure where its
derived entries measure. Nothing in it is left to be turned into plain data, and turning it again
changes nothing. What stands at a place of the value is kept at that place, and nothing stands
anywhere else but the truth values behind the fields of records; no key or name comes twice if none
did before. Of any other value no plain data is made, for want of a length. -/
theorem plain_keeps_places (v : Value) :
    (v.Sized → ∃ w, v.plain = .ok w ∧ w.IsPlain ∧ w.plain = .ok w ∧
      (∀ place u, v.at? place = some u → ∃ u', w.at? place = some u' ∧ u.KeptAs u') ∧
      (∀ place u', w.at? place = some u' →
        (∃ u, v.at? place = some u) ∨ v.DerivedAt place ∧ ∃ b, u' = bool b) ∧
      (v.Keyed → w.Keyed)) ∧
    (¬ v.Sized → ∃ sort, v.plain = .error (.noLength sort)) := by
  constructor
  · intro h
    have hplain : v.plain = .ok v.toPlain := by rw [plain, lengthless?_eq_none_iff_sized.2 h]
    refine ⟨v.toPlain, hplain, isPlain_toPlain v, (isPlain_toPlain v).plain_eq, ?_, ?_,
      Keyed.toPlain⟩
    · intro place u hu
      exact ⟨u.toPlain, at?_toPlain hu, keptAs_toPlain u⟩
    · intro place u' hu'
      exact (at?_of_toPlain hu').imp_left fun ⟨u, hu, _⟩ => ⟨u, hu⟩
  · intro h
    rw [← lengthless?_eq_none_iff_sized, ← Ne, Option.ne_none_iff_exists'] at h
    obtain ⟨sort, hsort⟩ := h
    exact ⟨sort, by rw [plain, hsort]⟩

end Value

namespace Library

def holdings : Value :=
  .tuple
    [RecordClass.type.make [("name", .str "Book"), ("interfaces", .tuple [.str "Node"])],
     .frozen [(.tuple [.int 1, .int 2], .list [.tuple [.constant "Genre.FANTASY"]])],
     .object "Reader" [("name", .str "Ada"), ("class", .constant "Reader")]]

def fieldless : Value := RecordClass.type.make [("name", .str "T"), ("fields", .null)]

theorem holdings_sized : holdings.Sized := Value.lengthless?_eq_none_iff_sized.1 rfl

theorem holdings_keyed : holdings.Keyed := by
  simp [holdings, RecordClass.make, RecordClass.fields, Entries.get?, Value.keyed_iff (.tuple _),
    Value.keyed_iff (.list _), Value.keyed_iff (.frozen _), Value.keyed_iff (.record _ _),
    Value.keyed_iff (.object _ _), Value.keyed_iff (.str _), Value.keyed_iff (.constant _),
    Value.keyed_iff (.bool _), Value.keyed_iff .null, Value.parts, Value.KeyedHere, Entries.values,
    Mapping.Distinct, Mapping.keys, Entries.Distinct, Entries.keys]

end Library

/-- The member of an enumeration is found in its place, the mapping keeps its key, and the record is
told to have no fields. -/
theorem Value.plain_keeps_places_holdings :
    Library.holdings.Sized ∧ Library.holdings.Keyed ∧
      ∃ w, Library.holdings.plain = .ok w ∧ w.IsPlain ∧ w.plain = .ok w ∧ w.Keyed ∧
        w.at? [1, 0, 0, 0] = some (.constant "Genre.FANTASY") ∧
        (∃ entries, w.at? [1] = some (.dict entries) ∧
          Mapping.keys entries = [.tuple [.int 1, .int 2]]) ∧
        w.at? [0, 6] = some (.bool false) ∧ Library.holdings.DerivedAt [0, 6] := by
  refine ⟨Library.holdings_sized, Library.holdings_keyed, ?_⟩
  obtain ⟨w, hplain, hsorts, hagain, hkept, -, hkeyed⟩ :=
    (plain_keeps_places Library.holdings).1 Library.holdings_sized
  refine ⟨w, hplain, hsorts, hagain, hkeyed Library.holdings_keyed, ?_, ?_, ?_, ?_⟩
  · obtain ⟨u, hu, hleaf⟩ := hkept [1, 0, 0, 0] (.constant "Genre.FANTASY") rfl
    cases hleaf
    exact hu
  · obtain ⟨u, hu, hmapping⟩ := hkept [1] _ rfl
    cases hmapping with
    | leaf leaf => cases leaf
    | frozen keys => exact ⟨_, hu, keys⟩
  · have hw : Library.holdings.toPlain = w := Except.ok.inj hplain
    rw [← hw]
    rfl
  · exact ⟨[0], 6, _, _, rfl, rfl, Nat.le_refl 6⟩

/-- A record of a type can be made with null in the place of its fields, but whether the type has
fields cannot be told of it. -/
theorem Value.fieldless_has_no_plain_data :
    RecordClass.type.ofGiven [("name", .str "T"), ("fields", .null)] = .ok Library.fieldless ∧
      Library.fieldless.plain = .error (.noLength "NoneType") ∧
      ¬ ∀ v : Value, ∃ w, v.plain = .ok w := by
  have hplain : Library.fieldless.plain = .error (.noLength "NoneType") := rfl
  refine ⟨rfl, hplain, fun h => ?_⟩
  obtain ⟨w, hw⟩ := h Library.fieldless
  rw [hplain] at hw
  cases hw

end SchemaContext
