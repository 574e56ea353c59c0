import Mathlib.Data.List.Perm.Basic
import SchemaContext.Context.Basic
import SchemaContext.Proofs.NestedValues

/-!
# Contexts as plain data

The plain data of a context is laid out by hand, entry by entry. It is the plain data
that any other object with the context's fields would give, and the presence flags with
it. What the plain data of a record says of another entry of the same record, it says
rightly: that entry, as plain data, is empty or not.
-/

namespace SchemaContext

/-- The entry under one name, if there is one, is a truth value, which tells whether the entry under
another name has elements. -/
def Entries.Tells (m : Entries Value) (flag name : String) : Prop :=
  ∀ v, m.get? flag = some v →
    ∃ told items b, m.get? name = some told ∧ told.elements? = some items ∧ v = .bool b ∧
      (b = true ↔ items ≠ [])

namespace RecordClass

variable {c : RecordClass} {p : String × String} {k : String}

theorem derived_cases (h : p ∈ c.derived) :
    p.1 = "has_" ++ p.2 ∨ p = ("uses_directives", "directives") := by
  revert p
  cases c <;> decide

theorem mem_fields_of_derived (h : p ∈ c.derived) : p.2 ∈ c.fields.keys := by
  revert p
  cases c <;> decide

theorem not_mem_fields (x : String) : "has_" ++ x ∉ c.fields.keys := by
  intro h
  have hplain : ∀ k ∈ c.fields.keys, ¬ "has_".toList <+: k.toList := by cases c <;> decide
  refine hplain _ h ?_
  rw [String.toList_append]
  exact List.prefix_append _ _

theorem uses_not_mem_fields : "uses_directives" ∉ c.fields.keys := by cases c <;> decide

theorem has_append_ne_uses (x : String) : "has_" ++ x ≠ "uses_directives" := by
  intro h
  have hplain : ¬ "has_".toList <+: "uses_directives".toList := by decide
  refine hplain ?_
  rw [← h, String.toList_append]
  exact List.prefix_append _ _

end RecordClass

namespace Value

variable {cls : RecordClass} {fields : Entries Value}

theorem exists_length_of_derived (hfields : fields.keys = cls.fields.keys)
    (hlength : (record cls fields).lengthless? = none) {p : String × String}
    (hp : p ∈ cls.derived) : ∃ w n, fields.get? p.2 = some w ∧ w.length? = some n := by
  obtain ⟨w, hw⟩ : ∃ w, fields.get? p.2 = some w := by
    rw [← Option.isSome_iff_exists, ← Option.ne_none_iff_isSome, Ne, Entries.get?_eq_none_iff,
      hfields, not_not]
    exact RecordClass.mem_fields_of_derived hp
  have hself := lengthlessDerived?_eq_none_iff.1 (lengthless?_eq_none_iff.1 hlength).2
  obtain ⟨n, hn⟩ := Option.isSome_iff_exists.1 (hself p hp w hw)
  exact ⟨w, n, hw, hn⟩

theorem tells_of_derived (hfields : fields.keys = cls.fields.keys)
    (hlength : (record cls fields).lengthless? = none) {flag name : String}
    (hflag : flag ∉ cls.fields.keys) (hname : ∀ p ∈ cls.derived, p.1 = flag → p.2 = name) :
    (fields.mapValues toPlain ++ derivedEntries cls fields).Tells flag name := by
  intro v hv
  have hnone : (fields.mapValues toPlain).get? flag = none := by
    rwa [Entries.get?_eq_none_iff, Entries.keys_mapValues, hfields]
  rw [Entries.get?_append, hnone, Option.none_or] at hv
  obtain ⟨p, hp, hentry⟩ := List.mem_map.1 (Entries.mem_of_get? hv)
  obtain ⟨rfl, rfl⟩ := Prod.mk.inj hentry
  obtain rfl := hname p hp rfl
  obtain ⟨w, n, hw, hn⟩ := exists_length_of_derived hfields hlength hp
  obtain ⟨items, hitems, hcount⟩ := Option.map_eq_some_iff.1 (length?_toPlain hn)
  have hget :
      (fields.mapValues toPlain ++ derivedEntries cls fields).get? p.2 = some w.toPlain := by
    rw [Entries.get?_append, Entries.get?_mapValues, hw]
    rfl
  refine ⟨_, items, _, hget, hitems, rfl, ?_⟩
  rw [hw, Option.bind_some, hn, Option.getD_some, ← hcount]
  simp

/-- A record's plain data has an entry for each field and each derived entry of its class. -/
theorem toPlain_record (hfields : fields.keys = cls.fields.keys)
    (hlength : (record cls fields).lengthless? = none) :
    ∃ d : Entries Value, (record cls fields).toPlain = ofEntries d ∧
      d.keys = cls.fields.keys ++ cls.derived.map Prod.fst ∧
      (∀ x, d.Tells ("has_" ++ x) x) ∧ d.Tells "uses_directives" "directives" := by
  refine ⟨fields.mapValues toPlain ++ derivedEntries cls fields, ?_, ?_, fun x => ?_, ?_⟩
  · rw [toPlain, toPlainFields_eq_mapValues]
  · rw [Entries.keys_append, Entries.keys_mapValues, hfields, derivedEntries_keys]
  · refine tells_of_derived hfields hlength (RecordClass.not_mem_fields x) fun p hp hpx => ?_
    rcases RecordClass.derived_cases hp with h | rfl
    · exact (String.append_right_inj "has_").1 (h.symm.trans hpx)
    · exact absurd hpx.symm (RecordClass.has_append_ne_uses x)
  · refine tells_of_derived hfields hlength RecordClass.uses_not_mem_fields fun p hp hpx => ?_
    rcases RecordClass.derived_cases hp with h | rfl
    · exact absurd (h.symm.trans hpx) (RecordClass.has_append_ne_uses p.2)
    · rfl

end Value

namespace Context.Fields

/-- A context as its class declares it: sequences in the places of the lists, a truth value that
tells whether directives are used, and a schema or none. What the sequences hold, and what the
directives are, is left open. -/
structure Declared (f : Fields) : Prop where
  lists : f.lists.keys = listNames
  sequences : ∀ l ∈ f.lists, ∃ items, l.2 = .tuple items ∨ l.2 = .list items
  flag : ∃ b, f.usesDirectives = .bool b
  schema : f.schema = .null ∨ ∃ name, f.schema = .constant name

def generic (f : Fields) : Entries Value := f.all.mapValues Value.toPlain

theorem toPlain_toValue (f : Fields) : f.toValue.toPlain = .ofEntries f.generic := by
  rw [toValue, Value.toPlain, Value.toPlainFields_eq_mapValues, generic]

variable {f : Fields}

section Sequences

variable {v : Value} {items : List Value}

theorem elements?_of_sequence (h : v = .tuple items ∨ v = .list items) :
    v.elements? = some items := by
  rcases h with rfl | rfl <;> rfl

theorem toPlain_of_sequence (h : v = .tuple items ∨ v = .list items) : v.toPlain = plainList v := by
  rw [plainList, elements?_of_sequence h, Option.getD_some]
  rcases h with rfl | rfl <;> simp [Value.toPlain]

theorem listFault?_of_sequence (h : v = .tuple items ∨ v = .list items) :
    listFault? v = v.lengthless?.map .noLength := by
  rw [listFault?, elements?_of_sequence h]
  rcases h with rfl | rfl <;> rw [Value.lengthless?, Value.lengthlessItems?_eq]

theorem listFaults?_of_sequences {lists : Entries Value}
    (h : ∀ l ∈ lists, ∃ items, l.2 = .tuple items ∨ l.2 = .list items) :
    (lists.findSome? fun l => listFault? l.2) =
      (lists.values.findSome? Value.lengthless?).map .noLength := by
  induction lists with
  | nil => rfl
  | cons l lists ih =>
    obtain ⟨⟨items, hl⟩, hlists⟩ := List.forall_mem_cons.1 h
    have hvalues : Entries.values (l :: lists) = l.2 :: Entries.values lists := rfl
    rw [List.findSome?_cons, listFault?_of_sequence hl, ih hlists, hvalues, List.findSome?_cons]
    cases l.2.lengthless? <;> rfl

end Sequences

namespace Declared

section Leaves

theorem toPlain_flag (h : f.Declared) : f.usesDirectives.toPlain = f.usesDirectives := by
  obtain ⟨b, hb⟩ := h.flag
  rw [hb]
  rfl

theorem lengthless?_flag (h : f.Declared) : f.usesDirectives.lengthless? = none := by
  obtain ⟨b, hb⟩ := h.flag
  rw [hb]
  rfl

theorem toPlain_schema (h : f.Declared) : f.schema.toPlain = f.schema := by
  rcases h.schema with hs | ⟨name, hs⟩ <;> rw [hs] <;> rfl

theorem lengthless?_schema (h : f.Declared) : f.schema.lengthless? = none := by
  rcases h.schema with hs | ⟨name, hs⟩ <;> rw [hs] <;> rfl

end Leaves

/-- Both ways of making plain data of a context find the same fault, if they find one. -/
theorem fault?_eq (h : f.Declared) : f.fault? = f.toValue.lengthless?.map .noLength := by
  have hall : f.toValue.lengthless? =
      (f.lists.values.findSome? Value.lengthless?).or f.directives.lengthless? := by
    rw [toValue, Value.lengthless?, Value.lengthlessFields?_eq, all, compared, Entries.values,
      List.map_cons, List.map_append, List.findSome?_cons, h.lengthless?_schema,
      List.findSome?_append]
    simp [Entries.values, List.findSome?_cons, h.lengthless?_flag]
    cases f.directives.lengthless? <;> rfl
  rw [fault?, listFaults?_of_sequences h.sequences, hall, Option.map_or]

theorem mapValues_lists (h : f.Declared) :
    f.lists.mapValues Value.toPlain = f.lists.mapValues plainList := by
  apply List.map_congr_left
  intro l hl
  obtain ⟨items, hl⟩ := h.sequences l hl
  rw [toPlain_of_sequence hl]

/-- The entries laid out by hand are those of an object with the context's fields, and the flags. -/
theorem plainEntries_perm (h : f.Declared) : f.plainEntries.Perm (f.generic ++ f.flags) := by
  have hgeneric : f.generic = ("raw_schema", f.schema) :: (f.lists.mapValues plainList ++
      [("directives", f.directives.toPlain), ("uses_directives", f.usesDirectives)]) := by
    rw [← h.mapValues_lists, generic, all, compared]
    simp [Entries.mapValues, h.toPlain_schema, h.toPlain_flag]
  rw [hgeneric, plainEntries]
  generalize f.lists.mapValues plainList = lists
  -- the schema goes to the front, and the flags go behind the directives
  calc lists ++ f.flags ++ [("directives", f.directives.toPlain),
        ("uses_directives", f.usesDirectives), ("raw_schema", f.schema)]
    _ = (lists ++ (f.flags ++ [("directives", f.directives.toPlain),
          ("uses_directives", f.usesDirectives)])) ++ [("raw_schema", f.schema)] := by simp
    _ |>.Perm <| [("raw_schema", f.schema)] ++ (lists ++ (f.flags ++
          [("directives", f.directives.toPlain), ("uses_directives", f.usesDirectives)])) :=
        List.perm_append_comm
    _ |>.Perm <| [("raw_schema", f.schema)] ++ (lists ++ ([("directives", f.directives.toPlain),
          ("uses_directives", f.usesDirectives)] ++ f.flags)) :=
        (List.perm_append_comm.append_left lists).append_left _
    _ = ("raw_schema", f.schema) :: (lists ++ [("directives", f.directives.toPlain),
          ("uses_directives", f.usesDirectives)]) ++ f.flags := by simp

theorem generic_keys (h : f.Declared) :
    f.generic.keys = "raw_schema" :: listNames ++ ["directives", "uses_directives"] := by
  rw [generic, Entries.keys_mapValues, ← h.lists, all, compared]
  simp [Entries.keys]

theorem flags_keys (h : f.Declared) : f.flags.keys = listNames.map ("has_" ++ ·) := by
  rw [← h.lists]
  simp [flags, Entries.keys]

theorem plainEntries_distinct (h : f.Declared) : f.plainEntries.Distinct := by
  have hkeys := h.plainEntries_perm.map Prod.fst
  rw [← Entries.keys, ← Entries.keys, Entries.keys_append, h.generic_keys, h.flags_keys] at hkeys
  exact hkeys.nodup_iff.2 (by decide)

theorem get?_plainEntries (h : f.Declared) {l : String × Value} (hl : l ∈ f.lists) :
    ∃ items, l.2.elements? = some items ∧
      f.plainEntries.get? l.1 = some (.list (items.map Value.toPlain)) ∧
      f.plainEntries.get? ("has_" ++ l.1) = some (.bool (items.length ≠ 0)) := by
  obtain ⟨items, hitems⟩ := h.sequences l hl
  have helements := elements?_of_sequence hitems
  refine ⟨items, helements, ?_, ?_⟩
  · have hmem : (l.1, plainList l.2) ∈ f.plainEntries :=
      List.mem_append_left _ (List.mem_append_left _ (List.mem_map_of_mem hl))
    rw [Entries.get?_of_mem h.plainEntries_distinct hmem, plainList, helements, Option.getD_some]
  · have hmem : ("has_" ++ l.1, Value.bool ((l.2.length?.getD 0) ≠ 0)) ∈ f.plainEntries :=
      List.mem_append_left _ (List.mem_append_right _ (List.mem_map_of_mem hl))
    rw [Entries.get?_of_mem h.plainEntries_distinct hmem, Value.length?, helements]
    rfl

theorem occurs_plainEntries (h : f.Declared) {cls : RecordClass} {fields : Entries Value}
    (hoccurs : (Value.record cls fields).Occurs f.toValue) :
    (Value.record cls fields).toPlain.Occurs (.ofEntries f.plainEntries) := by
  -- a context is no record, so the record occurs in one of the fields
  obtain _ | ⟨hpart, hoccurs⟩ := hoccurs
  obtain ⟨e, he, rfl⟩ := List.mem_map.1 hpart
  refine .inside ?_ hoccurs.toPlain
  rw [Value.parts_ofEntries]
  have hmem : (e.1, e.2.toPlain) ∈ f.plainEntries :=
    h.plainEntries_perm.mem_iff.2 (List.mem_append_left _ (List.mem_map_of_mem he))
  exact List.mem_map_of_mem hmem

end Declared

/-- The plain data of a context, laid out by hand, agrees with the plain data of an object with the
context's fields. Either both fail, and in the same way, or the entries are those of the object,
one for each field, and a flag for each list, set exactly if the list is not empty. Then every
record in the context, at any depth, stands in the plain data with an entry for each field and each
derived entry of its class, and what is derived tells rightly whether the entry that it tells of has
elements. -/
theorem toEntries_agrees_with_plain (h : f.Declared) :
    (∀ e, f.toEntries = .error e ↔ f.toValue.plain = .error e) ∧
    ∀ entries, f.toEntries = .ok entries → ∃ generic flags : Entries Value,
      f.toValue.plain = .ok (.ofEntries generic) ∧
      generic.keys = "raw_schema" :: listNames ++ ["directives", "uses_directives"] ∧
      flags.keys = listNames.map ("has_" ++ ·) ∧
      entries.Perm (generic ++ flags) ∧ entries.Distinct ∧
      (∀ l ∈ f.lists, ∃ items b, l.2.elements? = some items ∧
        entries.get? l.1 = some (.list (items.map Value.toPlain)) ∧
        entries.get? ("has_" ++ l.1) = some (.bool b) ∧ (b = true ↔ items ≠ [])) ∧
      ∀ cls fields, (Value.record cls fields).Occurs f.toValue →
        Entries.keys fields = cls.fields.keys → ∃ d : Entries Value,
          (Value.record cls fields).toPlain = .ofEntries d ∧
          (Value.ofEntries d).Occurs (.ofEntries entries) ∧
          d.keys = cls.fields.keys ++ cls.derived.map Prod.fst ∧
          (∀ x, d.Tells ("has_" ++ x) x) ∧ d.Tells "uses_directives" "directives" := by
  cases hfault : f.toValue.lengthless? with
  | some sort =>
    have hentries : f.toEntries = .error (.noLength sort) := by
      rw [toEntries, h.fault?_eq, hfault]
      rfl
    have hplain : f.toValue.plain = .error (.noLength sort) := by rw [Value.plain, hfault]
    rw [hentries, hplain]
    refine ⟨fun e => by simp, ?_⟩
    rintro entries ⟨⟩
  | none =>
    have hentries : f.toEntries = .ok f.plainEntries := by
      rw [toEntries, h.fault?_eq, hfault]
      rfl
    have hplain : f.toValue.plain = .ok (.ofEntries f.generic) := by
      rw [Value.plain, hfault, toPlain_toValue]
    rw [hentries, hplain]
    refine ⟨fun e => by simp, ?_⟩
    rintro entries ⟨⟩
    refine ⟨f.generic, f.flags, rfl, h.generic_keys, h.flags_keys, h.plainEntries_perm,
      h.plainEntries_distinct, ?_, ?_⟩
    · intro l hl
      obtain ⟨items, helements, hlist, hflag⟩ := h.get?_plainEntries hl
      exact ⟨items, _, helements, hlist, hflag, by simp⟩
    · intro cls fields hoccurs hfields
      obtain ⟨d, hd, hkeys, htells, huses⟩ :=
        Value.toPlain_record hfields (hoccurs.lengthless? hfault)
      refine ⟨d, hd, ?_, hkeys, htells, huses⟩
      rw [← hd]
      exact h.occurs_plainEntries hoccurs

end Context.Fields

namespace Library

def shelf : Value :=
  RecordClass.field.make
    [("name", .str "shelf"), ("type", .str "Int"),
     ("arguments", .tuple [RecordClass.argument.make [("name", .str "row"), ("type", .str "Int")]])]

/-- A context made by hand, with a record in a mapping among what stands for the types. -/
def rooms : Context.Fields :=
  { lists := Context.listNames.map fun name =>
      (name, .tuple (if name = "types" then [.dict [(.str "hall", .list [shelf])]] else []))
    directives := .frozen []
    usesDirectives := .bool false
    schema := .null }

theorem rooms_declared : rooms.Declared where
  lists := rfl
  sequences := by
    intro l hl
    obtain ⟨name, -, rfl⟩ := List.mem_map.1 hl
    exact ⟨_, .inl rfl⟩
  flag := ⟨false, rfl⟩
  schema := .inl rfl

theorem shelf_occurs : shelf.Occurs rooms.toValue := by
  have hlist : shelf.Occurs (.list [shelf]) := .inside List.mem_cons_self .here
  have hmapping : shelf.Occurs (.dict [(.str "hall", .list [shelf])]) :=
    .inside List.mem_cons_self hlist
  have htuple : shelf.Occurs (.tuple [.dict [(.str "hall", .list [shelf])]]) :=
    .inside List.mem_cons_self hmapping
  exact .inside (List.mem_cons_of_mem _ List.mem_cons_self) htuple

end Library

/-- The hall's shelf is found in the plain data, and is said to have arguments. -/
theorem Context.Fields.toEntries_agrees_rooms :
    Library.rooms.Declared ∧ Library.shelf.Occurs Library.rooms.toValue ∧
      ∃ entries d : Entries Value, Library.rooms.toEntries = .ok entries ∧
        entries.get? "has_types" = some (.bool true) ∧
        entries.get? "has_enums" = some (.bool false) ∧
        (Value.ofEntries d).Occurs (.ofEntries entries) ∧ d.Tells "has_arguments" "arguments" ∧
        d.keys = RecordClass.field.fields.keys ++ ["has_arguments", "uses_directives"] := by
  refine ⟨Library.rooms_declared, Library.shelf_occurs, ?_⟩
  obtain ⟨-, hentries⟩ := toEntries_agrees_with_plain Library.rooms_declared
  obtain ⟨generic, flags, -, -, -, -, -, -, hrecords⟩ := hentries _ rfl
  obtain ⟨d, -, hoccurs, hkeys, htells, -⟩ := hrecords _ _ Library.shelf_occurs rfl
  exact ⟨_, d, rfl, rfl, rfl, hoccurs, htells "arguments", hkeys⟩

end SchemaContext
