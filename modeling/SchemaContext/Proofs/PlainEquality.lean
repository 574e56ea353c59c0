import SchemaContext.Proofs.NestedValues
import SchemaContext.Value.Equality

/-!
# Equality of plain data

Plain data forgets the class of a record, that a sequence was a tuple and that a mapping
was read-only. Where it is known beforehand what stands where, nothing is lost by that: two
values of one layout are equal exactly if their plain data are.
-/

namespace SchemaContext

namespace Value

variable {c : Comparison}

theorem length_eq_of_equalItems {items others : List Value}
    (h : equalItems c items others = true) : items.length = others.length := by
  induction items generalizing others with
  | nil =>
    rw [equalItems_nil, List.isEmpty_iff] at h
    rw [h]
  | cons v items ih =>
    cases others with
    | nil => simp at h
    | cons w others =>
      rw [equalItems_cons_cons, Bool.and_eq_true] at h
      rw [List.length_cons, List.length_cons, ih h.2]

theorem length?_eq_of_equal {v w : Value} (h : v.equal c w = true) : v.length? = w.length? := by
  cases v with
  | list items =>
    cases w <;> simp_all [equal, length?, elements?]
    exact length_eq_of_equalItems h
  | tuple items =>
    cases w <;> simp_all [equal, length?, elements?]
    exact length_eq_of_equalItems h
  | dict entries => cases w <;> simp_all [equal, length?, elements?, entries?]
  | frozen entries => cases w <;> simp_all [equal, length?, elements?, entries?]
  | bool b => cases w <;> simp_all [equal, length?, elements?, integer?]
  | int n => cases w <;> simp_all [equal, length?, elements?, integer?]
  | float x => cases w <;> simp_all [equal, length?, elements?, integer?]
  | _ => cases w <;> simp_all [equal, length?, elements?]

section Maps

variable {f : Value → Value}

theorem equalItems_map {items others : List Value}
    (h : ∀ v ∈ items, ∀ w ∈ others, (f v).equal c (f w) = v.equal c w) :
    equalItems c (items.map f) (others.map f) = equalItems c items others := by
  induction items generalizing others with
  | nil => simp
  | cons v items ih =>
    cases others with
    | nil => simp
    | cons w others =>
      have hrest : equalItems c (items.map f) (others.map f) = equalItems c items others :=
        ih fun v hv w hw => h v (List.mem_cons_of_mem _ hv) w (List.mem_cons_of_mem _ hw)
      simp [hrest, h v List.mem_cons_self w List.mem_cons_self]

theorem equalEntries_map {entries others : Mapping}
    (h : ∀ e ∈ entries, ∀ o ∈ others, (f e.2).equal c (f o.2) = e.2.equal c o.2) :
    equalEntries c (entries.map fun e => (e.1, f e.2)) (others.map fun e => (e.1, f e.2)) =
      equalEntries c entries others := by
  induction entries with
  | nil => simp
  | cons e entries ih =>
    rw [List.map_cons, equalEntries_cons, equalEntries_cons,
      ih fun e he => h e (List.mem_cons_of_mem _ he), List.find?_map]
    congr 1
    change ((others.find? fun o => e.1.equal c o.1).map _).any _ = _
    cases ho : others.find? fun o => e.1.equal c o.1 with
    | none => rfl
    | some o => exact h e List.mem_cons_self o (List.mem_of_find?_eq_some ho)

theorem equalFields_mapValues {m n : Entries Value}
    (h : ∀ e ∈ m, ∀ o ∈ n, e.1 = o.1 → (f e.2).equal c (f o.2) = e.2.equal c o.2) :
    equalFields c (m.mapValues f) (n.mapValues f) = equalFields c m n := by
  induction m generalizing n with
  | nil => simp [Entries.mapValues]
  | cons e m ih =>
    cases n with
    | nil => simp [Entries.mapValues]
    | cons o n =>
      have hrest : equalFields c (Entries.mapValues f m) (Entries.mapValues f n) =
          equalFields c m n :=
        ih fun e he o ho => h e (List.mem_cons_of_mem _ he) o (List.mem_cons_of_mem _ ho)
      unfold Entries.mapValues at hrest ⊢
      rw [List.map_cons, List.map_cons, equalFields_cons_cons, equalFields_cons_cons, hrest]
      by_cases hk : e.1 = o.1
      · rw [h e List.mem_cons_self o List.mem_cons_self hk]
      · rw [beq_false_of_ne hk, Bool.false_and, Bool.false_and, Bool.false_and, Bool.false_and]

end Maps

section Entries

variable {m n m' n' : Entries Value}

theorem equalFields_append (h : m.keys = n.keys) :
    equalFields c (m ++ m') (n ++ n') = (equalFields c m n && equalFields c m' n') := by
  induction m generalizing n with
  | nil =>
    cases n with
    | nil => simp
    | cons o n => cases h
  | cons e m ih =>
    cases n with
    | nil => cases h
    | cons o n =>
      obtain ⟨-, hrest⟩ := List.cons.inj h
      simp [ih hrest, Bool.and_assoc]

theorem length?_get?_eq_of_equalFields (h : equalFields c m n = true) (k : String) :
    (m.get? k).bind length? = (n.get? k).bind length? := by
  induction m generalizing n with
  | nil =>
    cases n with
    | nil => rfl
    | cons o n => simp at h
  | cons e m ih =>
    cases n with
    | nil => simp at h
    | cons o n =>
      rw [equalFields_cons_cons, Bool.and_eq_true, Bool.and_eq_true, beq_iff_eq] at h
      obtain ⟨⟨hkey, hvalue⟩, hrest⟩ := h
      rw [Entries.get?_cons, Entries.get?_cons, hkey]
      split
      · exact length?_eq_of_equal hvalue
      · exact ih hrest

/-- Among keys that are texts, the partner of an entry is what is found under its text. -/
theorem any_find?_ofEntries (k : String) (p : Value → Bool) :
    (((Mapping.ofEntries n).find? fun o => (str k).equal c o.1).any fun o => p o.2) =
      (n.get? k).any p := by
  induction n with
  | nil => rfl
  | cons o n ih =>
    have hkey : (str k).equal c (str o.1) = (k == o.1) := by rw [equal]
    rw [Mapping.ofEntries, List.map_cons, List.find?_cons, hkey, Entries.get?_cons]
    by_cases hk : o.1 = k
    · rw [if_pos hk, beq_iff_eq.2 hk.symm]
      rfl
    · rw [if_neg hk, beq_false_of_ne (Ne.symm hk)]
      exact ih

theorem equalEntries_ofEntries :
    equalEntries c (Mapping.ofEntries m) (Mapping.ofEntries n) =
      m.all fun e => (n.get? e.1).any (e.2.equal c) := by
  induction m with
  | nil => exact equalEntries_nil c _
  | cons e m ih =>
    rw [Mapping.ofEntries, List.map_cons, equalEntries_cons, any_find?_ofEntries, List.all_cons,
      ← ih]
    rfl

theorem all_get?_eq_equalFields (hkeys : m.keys = n.keys) (hm : m.Distinct) :
    (m.all fun e => (n.get? e.1).any (e.2.equal c)) = equalFields c m n := by
  induction m generalizing n with
  | nil =>
    cases n with
    | nil => simp
    | cons o n => cases hkeys
  | cons e m ih =>
    cases n with
    | nil => cases hkeys
    | cons o n =>
      obtain ⟨hhead, htail⟩ := List.cons.inj hkeys
      obtain ⟨hnew, hm⟩ := List.nodup_cons.1 hm
      -- the head is found under its own text only, which no other entry has
      have hrest : (m.all fun e' => (Entries.get? (o :: n) e'.1).any (e'.2.equal c)) =
          m.all fun e' => (Entries.get? n e'.1).any (e'.2.equal c) := by
        rw [Bool.eq_iff_iff, List.all_eq_true, List.all_eq_true]
        refine forall₂_congr fun e' he' => ?_
        have hne : o.1 ≠ e'.1 := by
          intro heq
          exact hnew (hhead ▸ heq ▸ List.mem_map_of_mem he')
        rw [Entries.get?_cons, if_neg hne]
      rw [List.all_cons, hrest, ih htail hm, Entries.get?_cons, if_pos hhead.symm,
        equalFields_cons_cons, beq_iff_eq.2 hhead]
      rfl

theorem equal_dict (entries others : Mapping) :
    (dict entries).equal c (dict others) =
      (entries.length == others.length && equalEntries c entries others) := by
  rw [equal]
  rfl

theorem equal_frozen (entries others : Mapping) :
    (frozen entries).equal c (frozen others) =
      (entries.length == others.length && equalEntries c entries others) := by
  rw [equal]
  rfl

theorem equal_ofEntries (hkeys : m.keys = n.keys) (hm : m.Distinct) :
    (ofEntries m).equal c (ofEntries n) = equalFields c m n := by
  have hlength : (Mapping.ofEntries m).length = (Mapping.ofEntries n).length := by
    simpa [Mapping.ofEntries, Entries.keys] using congrArg List.length hkeys
  rw [ofEntries, ofEntries, equal_dict, hlength, beq_self_eq_true, Bool.true_and,
    equalEntries_ofEntries, all_get?_eq_equalFields hkeys hm]

end Entries

/-- Plain data: null, truth values, numbers other than NaN, texts, constants, and lists and
dictionaries of these, under whatever keys. -/
inductive PlainData : Value → Prop
  | null : PlainData null
  | bool (b : Bool) : PlainData (bool b)
  | int (n : Int) : PlainData (int n)
  | float {x : Binary64} (number : x.isNaN = false) : PlainData (float x)
  | str (s : String) : PlainData (str s)
  | constant (name : String) : PlainData (constant name)
  | list {items : List Value} (plain : ∀ v ∈ items, PlainData v) : PlainData (list items)
  | dict {entries : Mapping} (plain : ∀ e ∈ entries, PlainData e.2) : PlainData (dict entries)

namespace PlainData

variable {v : Value}

theorem isPlain (h : v.PlainData) : v.IsPlain := by
  induction h with
  | list _ ih => exact forall_occurs_iff.2 ⟨rfl, ih⟩
  | dict _ ih =>
    refine forall_occurs_iff.2 ⟨rfl, fun part hpart => ?_⟩
    obtain ⟨e, he, rfl⟩ := List.mem_map.1 hpart
    exact ih e he
  | _ => exact forall_occurs_iff.2 ⟨rfl, List.forall_mem_nil _⟩

theorem toPlain_eq (h : v.PlainData) : v.toPlain = v := h.isPlain.toPlain_eq

theorem lengthless?_eq_none (h : v.PlainData) : v.lengthless? = none :=
  lengthless?_eq_none_iff_sized.2 h.isPlain.sized

theorem ofText (t : Option String) : (ofText t).PlainData := by
  cases t with
  | none => exact .null
  | some s => exact .str s

end PlainData

end Value

/-- What is known to stand somewhere: plain data, a sequence, a read-only mapping or a record. -/
inductive Layout where
  | plain
  | sequence (item : Layout)
  | mapping (entry : Layout)
  | record (cls : RecordClass)

namespace Layout

def applied : Layout := mapping (mapping plain)

def isCollection : Layout → Bool
  | sequence _ | mapping _ => true
  | plain | record _ => false

def under (layouts : Entries Layout) (name : String) : Layout := (layouts.get? name).getD plain

end Layout

/-- The fields of a class that hold more than plain data. -/
def RecordClass.layouts : RecordClass → Entries Layout
  | type =>
    [("fields", .sequence (.record field)), ("interfaces", .sequence .plain),
     ("directives", .applied)]
  | field => [("arguments", .sequence (.record argument)), ("directives", .applied)]
  | enum => [("values", .sequence (.record enumValue)), ("directives", .applied)]
  | union => [("possible_types", .sequence .plain), ("directives", .applied)]
  | interface =>
    [("fields", .sequence (.record field)), ("implementing_types", .sequence .plain),
     ("directives", .applied)]
  | directive => [("locations", .sequence .plain), ("arguments", .sequence (.record argument))]
  | argument | enumValue | scalar => [("directives", .applied)]
  | resolvedType => []

namespace RecordClass

theorem isCollection_of_derived {cls : RecordClass} {p : String × String} (h : p ∈ cls.derived) :
    (Layout.under cls.layouts p.2).isCollection = true := by
  revert p
  cases cls <;> decide

theorem nodup_keys (cls : RecordClass) : (cls.fields.keys ++ cls.derived.map Prod.fst).Nodup := by
  cases cls <;> decide

end RecordClass

namespace Value

/-- A value of a layout. -/
inductive Has : Layout → Value → Prop
  | plain {v : Value} (data : v.PlainData) : Has .plain v
  | tuple {l : Layout} {items : List Value} (has : ∀ v ∈ items, Has l v) :
      Has (.sequence l) (tuple items)
  | frozen {l : Layout} {entries : Mapping} (has : ∀ e ∈ entries, Has l e.2) :
      Has (.mapping l) (frozen entries)
  | record {cls : RecordClass} {fields : Entries Value} (keys : fields.keys = cls.fields.keys)
      (has : ∀ e ∈ fields, Has (.under cls.layouts e.1) e.2) : Has (.record cls) (record cls fields)

variable {c : Comparison} {l : Layout} {v w : Value}

theorem Has.length?_isSome (h : v.Has l) (hl : l.isCollection = true) : v.length?.isSome := by
  cases h with
  | tuple _ => rfl
  | frozen _ => rfl
  | _ => cases hl

theorem Has.lengthless?_eq_none (h : v.Has l) : v.lengthless? = none := by
  induction h with
  | plain data => exact data.lengthless?_eq_none
  | tuple _ ih => exact lengthless?_eq_none_iff.2 ⟨ih, rfl⟩
  | frozen _ ih =>
    refine lengthless?_eq_none_iff.2 ⟨fun w hw => ?_, rfl⟩
    obtain ⟨e, he, rfl⟩ := List.mem_map.1 hw
    exact ih e he
  | @record cls fields keys has ih =>
    refine lengthless?_eq_none_iff.2 ⟨fun w hw => ?_, ?_⟩
    · obtain ⟨e, he, rfl⟩ := List.mem_map.1 hw
      exact ih e he
    · refine lengthlessDerived?_eq_none_iff.2 fun d hd w hw => ?_
      exact (has _ (Entries.mem_of_get? hw)).length?_isSome (RecordClass.isCollection_of_derived hd)

theorem derivedEntries_eq_of_equalFields {cls : RecordClass} {m n : Entries Value}
    (h : equalFields c m n = true) : derivedEntries cls m = derivedEntries cls n := by
  apply List.map_congr_left
  intro d _
  rw [length?_get?_eq_of_equalFields h]

theorem equalFields_self_of_bools {m : Entries Value} (h : ∀ e ∈ m, ∃ b, e.2 = bool b) :
    equalFields c m m = true := by
  induction m with
  | nil => simp
  | cons e m ih =>
    obtain ⟨⟨b, hb⟩, hm⟩ := List.forall_mem_cons.1 h
    simp [hb, ih hm, equal, integer?]

theorem equalFields_derivedEntries {cls : RecordClass} {m n : Entries Value}
    (h : equalFields c m n = true) :
    equalFields c (derivedEntries cls m) (derivedEntries cls n) = true := by
  rw [derivedEntries_eq_of_equalFields h]
  refine equalFields_self_of_bools fun e he => ?_
  obtain ⟨d, -, rfl⟩ := List.mem_map.1 he
  exact ⟨_, rfl⟩

/-- Values of one layout are equal exactly if their plain data are. -/
theorem Has.equal_toPlain (hv : v.Has l) (hw : w.Has l) :
    v.toPlain.equal c w.toPlain = v.equal c w := by
  induction hv generalizing w with
  | plain data =>
    cases hw with
    | plain data' => rw [data.toPlain_eq, data'.toPlain_eq]
  | @tuple l items _ ih =>
    cases hw with
    | @tuple _ others has =>
      rw [toPlain, toPlain, equal, equal]
      simp only [toPlainItems_eq_map]
      exact equalItems_map fun v hv w hw => ih v hv (has w hw)
  | @frozen l entries _ ih =>
    cases hw with
    | @frozen _ others has =>
      rw [toPlain, toPlain, equal_dict, equal_frozen, toPlainEntries_eq_map, toPlainEntries_eq_map,
        List.length_map, List.length_map,
        equalEntries_map fun e he o ho => ih e he (has o ho)]
  | @record cls fields keys _ ih =>
    cases hw with
    | @record _ others keys' has =>
      have hfields : equalFields c (fields.mapValues toPlain) (others.mapValues toPlain) =
          equalFields c fields others := by
        refine equalFields_mapValues fun e he o ho hkey => ih e he ?_
        rw [hkey]
        exact has o ho
      have hkeys : (fields.mapValues toPlain).keys = (others.mapValues toPlain).keys := by
        rw [Entries.keys_mapValues, Entries.keys_mapValues, keys, keys']
      have hall : Entries.keys (fields.mapValues toPlain ++ derivedEntries cls fields) =
          Entries.keys (others.mapValues toPlain ++ derivedEntries cls others) := by
        rw [Entries.keys_append, Entries.keys_append, hkeys, derivedEntries_keys,
          derivedEntries_keys]
      have hdistinct : (fields.mapValues toPlain ++ derivedEntries cls fields).Distinct := by
        rw [Entries.Distinct, Entries.keys_append, Entries.keys_mapValues, keys,
          derivedEntries_keys]
        exact cls.nodup_keys
      rw [toPlain, toPlain, toPlainFields_eq_mapValues, toPlainFields_eq_mapValues,
        equal_ofEntries hall hdistinct,
        equalFields_append hkeys, hfields, equal, beq_self_eq_true, Bool.true_and]
      -- what is derived follows from the fields
      cases h : equalFields c fields others with
      | false => rfl
      | true => rw [equalFields_derivedEntries h, Bool.and_self]

/-- Fields of the same layouts are equal exactly if their plain data are. -/
theorem equalFields_toPlain {layouts : Entries Layout} {m n : Entries Value}
    (hm : ∀ e ∈ m, e.2.Has (.under layouts e.1)) (hn : ∀ e ∈ n, e.2.Has (.under layouts e.1)) :
    equalFields c (m.mapValues toPlain) (n.mapValues toPlain) = equalFields c m n := by
  refine equalFields_mapValues fun e he o ho hkey => (hm e he).equal_toPlain ?_
  rw [hkey]
  exact hn o ho

end Value
end SchemaContext
