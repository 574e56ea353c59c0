import SchemaContext.Proofs.CrossReferences
import SchemaContext.Proofs.PlainContexts
import SchemaContext.Proofs.PlainEquality

/-!
# Contexts without loss

The records of a context that a build returns keep to the layouts of their classes, as long
as the values that come from the schema as they are (defaults of arguments, values of enum
values, arguments of directives) are plain data. So nothing that equality looks at is lost
when a context is turned into plain data.
-/

namespace SchemaContext

open Value (Has)

def Applied.given (a : Applied) : List Value := a.values.flatMap Entries.values

/-- The values in a record, at any depth, that stand in it as the schema gives them. -/
def ArgumentRecord.given (r : ArgumentRecord) : List Value := r.default :: r.directives.given

@[inherit_doc ArgumentRecord.given]
def FieldRecord.given (r : FieldRecord) : List Value :=
  r.directives.given ++ r.arguments.flatMap ArgumentRecord.given

@[inherit_doc ArgumentRecord.given]
def EnumValueRecord.given (r : EnumValueRecord) : List Value := r.value :: r.directives.given

namespace Record

@[inherit_doc ArgumentRecord.given]
def given : Record → List Value
  | type r => r.directives.given ++ r.fields.flatMap FieldRecord.given
  | interface r => r.directives.given ++ r.fields.flatMap FieldRecord.given
  | enum r => r.directives.given ++ r.values.flatMap EnumValueRecord.given
  | union r => r.directives.given
  | scalar r => r.directives.given
  | directive r => r.arguments.flatMap ArgumentRecord.given

def cls : Record → RecordClass
  | type _ => .type
  | enum _ => .enum
  | union _ => .union
  | interface _ => .interface
  | scalar _ => .scalar
  | directive _ => .directive

end Record

def Kind.recordClass : Kind → RecordClass
  | .object | .inputObject => .type
  | .enum => .enum
  | .union => .union
  | .interface => .interface
  | .scalar => .scalar

/-- The values in a context that stand in it as the schema gives them: defaults of arguments, values
of enum values and arguments of directives. -/
def Context.given (c : Context Record) : List Value :=
  c.directives.given ++ (c.placed.flatMap fun r => r.2.given) ++
    c.definedDirectives.flatMap Record.given

section Layouts

namespace Value

theorem has_frozenOf {l : Layout} {m : Entries Value} (h : ∀ e ∈ m, Has l e.2) :
    (frozenOf m).Has (.mapping l) := by
  refine .frozen fun e he => ?_
  obtain ⟨entry, hentry, rfl⟩ := List.mem_map.1 he
  exact h entry hentry

theorem has_tuple_map {l : Layout} {f : α → Value} {as : List α} (h : ∀ a ∈ as, (f a).Has l) :
    (tuple (as.map f)).Has (.sequence l) := by
  refine .tuple fun v hv => ?_
  obtain ⟨a, ha, rfl⟩ := List.mem_map.1 hv
  exact h a ha

theorem has_tuple_of_given {l : Layout} {given : α → List Value} {f : α → Value} {as : List α}
    (hlayout : ∀ a, (∀ v ∈ given a, v.PlainData) → (f a).Has l)
    (h : ∀ v ∈ as.flatMap given, v.PlainData) : (tuple (as.map f)).Has (.sequence l) :=
  has_tuple_map fun a ha => hlayout a fun v hv => h v (List.mem_flatMap.2 ⟨a, ha, hv⟩)

theorem has_ofNames (names : List String) : (ofNames names).Has (.sequence .plain) :=
  has_tuple_map fun name _ => .plain (.str name)

end Value

open Value

theorem Applied.has {a : Applied} (h : ∀ v ∈ a.given, v.PlainData) : a.toValue.Has .applied := by
  refine has_frozenOf fun e he => ?_
  obtain ⟨d, hd, rfl⟩ := List.mem_map.1 he
  refine has_frozenOf fun arg harg => .plain (h _ ?_)
  exact List.mem_flatMap.2 ⟨d.2, List.mem_map_of_mem hd, List.mem_map_of_mem harg⟩

theorem ArgumentRecord.has (r : ArgumentRecord) (h : ∀ v ∈ r.given, v.PlainData) :
    r.toValue.Has (.record .argument) := by
  obtain ⟨hdefault, hdirectives⟩ := List.forall_mem_cons.1 h
  refine .record rfl ?_
  simp only [ResolvedType.wrapperEntries, List.cons_append, List.nil_append, List.forall_mem_cons]
  exact ⟨.plain (.str _), .plain (.str _), .plain (.ofText _), .plain hdefault, .plain (.bool _),
    .plain (.bool _), .plain (.bool _), .plain (.int _), .plain (.bool _), .plain (.bool _),
    .plain (.bool _), Applied.has hdirectives, List.forall_mem_nil _⟩

theorem FieldRecord.has (r : FieldRecord) (h : ∀ v ∈ r.given, v.PlainData) :
    r.toValue.Has (.record .field) := by
  obtain ⟨hdirectives, harguments⟩ := List.forall_mem_append.1 h
  refine .record rfl ?_
  simp only [ResolvedType.wrapperEntries, List.cons_append, List.nil_append, List.forall_mem_cons]
  exact ⟨.plain (.str _), .plain (.str _), .plain (.ofText _),
    has_tuple_of_given ArgumentRecord.has harguments, .plain (.bool _), .plain (.bool _),
    .plain (.bool _), .plain (.int _), .plain (.bool _), .plain (.bool _), .plain (.bool _),
    .plain (.bool _), .plain (.bool _), .plain (.bool _), .plain (.bool _), .plain (.ofText _),
    Applied.has hdirectives, List.forall_mem_nil _⟩

theorem EnumValueRecord.has (r : EnumValueRecord) (h : ∀ v ∈ r.given, v.PlainData) :
    r.toValue.Has (.record .enumValue) := by
  obtain ⟨hvalue, hdirectives⟩ := List.forall_mem_cons.1 h
  refine .record rfl ?_
  simp only [List.forall_mem_cons]
  exact ⟨.plain (.str _), .plain hvalue, .plain (.ofText _), .plain (.bool _), .plain (.ofText _),
    Applied.has hdirectives, List.forall_mem_nil _⟩

theorem Record.has (r : Record) (h : ∀ v ∈ r.given, v.PlainData) :
    r.toValue.Has (.record r.cls) := by
  cases r with
  | type r =>
    obtain ⟨hdirectives, hfields⟩ := List.forall_mem_append.1 h
    refine .record rfl ?_
    simp only [List.forall_mem_cons]
    exact ⟨.plain (.str _), .plain (.ofText _), has_tuple_of_given FieldRecord.has hfields,
      has_ofNames _, .plain (.bool _), Applied.has hdirectives, List.forall_mem_nil _⟩
  | interface r =>
    obtain ⟨hdirectives, hfields⟩ := List.forall_mem_append.1 h
    refine .record rfl ?_
    simp only [List.forall_mem_cons]
    exact ⟨.plain (.str _), .plain (.ofText _), has_tuple_of_given FieldRecord.has hfields,
      has_ofNames _, Applied.has hdirectives, List.forall_mem_nil _⟩
  | enum r =>
    obtain ⟨hdirectives, hvalues⟩ := List.forall_mem_append.1 h
    refine .record rfl ?_
    simp only [List.forall_mem_cons]
    exact ⟨.plain (.str _), .plain (.ofText _), has_tuple_of_given EnumValueRecord.has hvalues,
      Applied.has hdirectives, List.forall_mem_nil _⟩
  | union r =>
    refine .record rfl ?_
    simp only [List.forall_mem_cons]
    exact ⟨.plain (.str _), .plain (.ofText _), has_ofNames _, Applied.has h, List.forall_mem_nil _⟩
  | scalar r =>
    refine .record rfl ?_
    simp only [List.forall_mem_cons]
    exact ⟨.plain (.str _), .plain (.ofText _), Applied.has h, List.forall_mem_nil _⟩
  | directive r =>
    refine .record rfl ?_
    simp only [List.forall_mem_cons]
    exact ⟨.plain (.str _), .plain (.ofText _), has_ofNames _,
      has_tuple_of_given ArgumentRecord.has h, .plain (.bool _), List.forall_mem_nil _⟩

end Layouts

section Placed

variable {s : Schema} {kept : Entries Entry} {directives : List DirectiveDefinition}
  {c : Context Record}

theorem Record.Describes.cls_eq {t : NamedType} {r : Record} (h : r.Describes s t) :
    r.cls = t.kind.recordClass := by
  unfold NamedType.kind
  cases h with
  | object body => rw [body]; rfl
  | inputObject body => rw [body]; rfl
  | interface body => rw [body]; rfl
  | enum body => rw [body]; rfl
  | union body => rw [body]; rfl
  | scalar body => rw [body]; rfl

theorem Assembles.cls_eq (h : Assembles .records s kept directives c) {k : Kind} {r : Record}
    (hr : r ∈ c.ofKind k) : r.cls = k.recordClass := by
  obtain ⟨-, -, t, -, rfl, hdescribes⟩ := h.describes_of_placed (Context.mem_placed.2 hr)
  exact hdescribes.cls_eq

theorem Assembles.cls_eq_of_defined (h : Assembles .records s kept directives c) {r : Record}
    (hr : r ∈ c.definedDirectives) : r.cls = .directive := by
  obtain ⟨-, -, x, -, rfl⟩ :=
    exists_mem_of_forall₂ (Transformers.records_ofDirectives_eq_ok_iff.1 h.defined) hr
  rfl

end Placed

namespace Context

def layouts : Entries Layout :=
  [("types", .sequence (.record .type)), ("input_types", .sequence (.record .type)),
   ("enums", .sequence (.record .enum)), ("unions", .sequence (.record .union)),
   ("scalars", .sequence (.record .scalar)), ("interfaces", .sequence (.record .interface)),
   ("defined_directives", .sequence (.record .directive)), ("directives", .applied)]

theorem fields_declared (c : Context Value) : c.fields.Declared where
  lists := rfl
  sequences := by
    intro l hl
    obtain ⟨list, -, rfl⟩ := List.mem_map.1 hl
    exact ⟨_, .inl rfl⟩
  flag := ⟨_, rfl⟩
  schema := by
    rw [fields, schemaValue]
    cases c.schema with
    | none => exact .inl rfl
    | some s => exact .inr ⟨_, rfl⟩

end Context

namespace Context.Fields

variable {f g : Fields} {comparison : Value.Comparison}

theorem equal_eq_equalFields :
    f.equal comparison g = Value.equalFields comparison f.compared g.compared := by
  rw [equal, Value.equal, beq_self_eq_true, Bool.true_and]

theorem flags_eq_of_equalFields {lists others : Entries Value}
    (h : Value.equalFields comparison lists others = true) :
    (lists.map fun l => ("has_" ++ l.1, Value.bool ((l.2.length?.getD 0) ≠ 0))) =
      others.map fun l => ("has_" ++ l.1, Value.bool ((l.2.length?.getD 0) ≠ 0)) := by
  induction lists generalizing others with
  | nil =>
    cases others with
    | nil => rfl
    | cons o others => simp at h
  | cons l lists ih =>
    cases others with
    | nil => simp at h
    | cons o others =>
      rw [Value.equalFields_cons_cons, Bool.and_eq_true, Bool.and_eq_true, beq_iff_eq] at h
      obtain ⟨⟨hname, hlist⟩, hrest⟩ := h
      rw [List.map_cons, List.map_cons, ih hrest, hname, Value.length?_eq_of_equal hlist]

theorem equalFields_flags (h : Value.equalFields comparison f.lists g.lists = true) :
    Value.equalFields comparison f.flags g.flags = true := by
  rw [flags, flags, flags_eq_of_equalFields h]
  refine Value.equalFields_self_of_bools fun e he => ?_
  obtain ⟨l, -, rfl⟩ := List.mem_map.1 he
  exact ⟨_, rfl⟩

/-- The plain data of a context without its schema: lists, flags and directives. -/
theorem Declared.plainEntries_erase (h : f.Declared) :
    f.plainEntries.erase "raw_schema" = f.lists.mapValues Value.toPlain ++ f.flags ++
      Entries.mapValues Value.toPlain
        [("directives", f.directives), ("uses_directives", f.usesDirectives)] := by
  have hlists : "raw_schema" ∉ (f.lists.mapValues plainList).keys := by
    rw [Entries.keys_mapValues, h.lists]
    decide
  have hflags : "raw_schema" ∉ f.flags.keys := by
    rw [h.flags_keys]
    decide
  rw [plainEntries, Entries.erase_append, Entries.erase_append, Entries.erase_of_not_mem hlists,
    Entries.erase_of_not_mem hflags, h.mapValues_lists]
  simp [Entries.erase, Entries.mapValues, h.toPlain_flag]

/-- The fields of a context, but for its schema, keep to the layout of contexts. -/
structure LaidOut (f : Fields) : Prop extends f.Declared where
  has : ∀ e ∈ f.compared, e.2.Has (.under layouts e.1)

namespace LaidOut

theorem toEntries_eq (h : f.LaidOut) : f.toEntries = .ok f.plainEntries := by
  have hfields : f.toValue.lengthless? = none := by
    refine Value.lengthless?_eq_none_iff.2 ⟨fun v hv => ?_, rfl⟩
    rcases List.mem_cons.1 hv with rfl | hv
    · exact h.lengthless?_schema
    · obtain ⟨e, he, rfl⟩ := List.mem_map.1 hv
      exact (h.has e he).lengthless?_eq_none
  rw [toEntries, h.fault?_eq, hfields]
  rfl

/-- Contexts that keep to the layout are equal exactly if their plain data are. -/
theorem equal_plainEntries (hf : f.LaidOut) (hg : g.LaidOut) :
    (Value.ofEntries (f.plainEntries.erase "raw_schema")).equal comparison
      (.ofEntries (g.plainEntries.erase "raw_schema")) = f.equal comparison g := by
  obtain ⟨hflists, hfrest⟩ := List.forall_mem_append.1 hf.has
  obtain ⟨hglists, hgrest⟩ := List.forall_mem_append.1 hg.has
  have hlists : f.lists.keys = g.lists.keys := hf.lists.trans hg.lists.symm
  have hflags : f.flags.keys = g.flags.keys := hf.flags_keys.trans hg.flags_keys.symm
  have hplain :
      (f.lists.mapValues Value.toPlain).keys = (g.lists.mapValues Value.toPlain).keys := by
    rw [Entries.keys_mapValues, Entries.keys_mapValues, hlists]
  have hfront : (f.lists.mapValues Value.toPlain ++ f.flags).keys =
      (g.lists.mapValues Value.toPlain ++ g.flags).keys := by
    rw [Entries.keys_append, Entries.keys_append, hplain, hflags]
  have hkeys : (f.plainEntries.erase "raw_schema").keys =
      (g.plainEntries.erase "raw_schema").keys := by
    rw [hf.plainEntries_erase, hg.plainEntries_erase]
    simp only [Entries.keys_append, hplain, hflags]
    rfl
  rw [Value.equal_ofEntries hkeys (hf.plainEntries_distinct.erase _), hf.plainEntries_erase,
    hg.plainEntries_erase, Value.equalFields_append hfront, Value.equalFields_append hplain,
    Value.equalFields_toPlain hflists hglists, Value.equalFields_toPlain hfrest hgrest,
    equal_eq_equalFields, compared, compared, Value.equalFields_append hlists]
  -- the flags follow from the lists
  cases h : Value.equalFields comparison f.lists g.lists with
  | false => rfl
  | true => rw [equalFields_flags h, Bool.and_self]

end LaidOut

end Context.Fields

/-- A context of records keeps to the layout of contexts. -/
theorem Assembles.laidOut {s : Schema} {kept : Entries Entry}
    {directives : List DirectiveDefinition} {c : Context Record}
    (h : Assembles .records s kept directives c) (hplain : ∀ v ∈ c.given, v.PlainData) :
    (c.map Record.toValue).fields.LaidOut := by
  refine ⟨Context.fields_declared _, ?_⟩
  obtain ⟨hfields, hdefined⟩ := List.forall_mem_append.1 hplain
  obtain ⟨happlied, hplaced⟩ := List.forall_mem_append.1 hfields
  have hlist (k : Kind) : ∀ r ∈ c.ofKind k, r.toValue.Has (.record k.recordClass) := by
    intro r hr
    rw [← h.cls_eq hr]
    exact r.has fun v hv => hplaced v (List.mem_flatMap.2 ⟨(k, r), Context.mem_placed.2 hr, hv⟩)
  have hdirectives : ∀ r ∈ c.definedDirectives, r.toValue.Has (.record .directive) := by
    intro r hr
    rw [← h.cls_eq_of_defined hr]
    exact r.has fun v hv => hdefined v (List.mem_flatMap.2 ⟨r, hr, hv⟩)
  simp only [Context.Fields.compared, Context.fields, Context.lists, Context.map, List.map_cons,
    List.map_nil, List.cons_append, List.nil_append, List.forall_mem_cons]
  exact ⟨Value.has_tuple_map (hlist .object), Value.has_tuple_map (hlist .inputObject),
    Value.has_tuple_map (hlist .enum), Value.has_tuple_map (hlist .union),
    Value.has_tuple_map (hlist .scalar), Value.has_tuple_map (hlist .interface),
    Value.has_tuple_map hdirectives, Applied.has happlied, .plain (.bool _), List.forall_mem_nil _⟩

/-- Contexts of records, built from any schemas, documents and settings, are equal exactly if their
plain data are, the schemas left aside; what the schemas give as it is has to be plain data. -/
theorem build_plain_data_lossless {r r' : Request Record} {j j' : Journal} {c c' : Context Record}
    (ht : r.transformers = .records) (ht' : r'.transformers = .records)
    (h : ((build r).outcome j).1 = .ok c) (h' : ((build r').outcome j').1 = .ok c')
    (hplain : ∀ v ∈ c.given, v.PlainData) (hplain' : ∀ v ∈ c'.given, v.PlainData)
    (comparison : Value.Comparison) :
    ∃ entries entries', (c.map Record.toValue).fields.toEntries = .ok entries ∧
      (c'.map Record.toValue).fields.toEntries = .ok entries' ∧
      ((c.map Record.toValue).fields.equal comparison (c'.map Record.toValue).fields = true ↔
        (Value.ofEntries (entries.erase "raw_schema")).equal comparison
          (.ofEntries (entries'.erase "raw_schema")) = true) := by
  obtain ⟨_, _, _, -, -, -, hassembles⟩ := build_returns h
  obtain ⟨_, _, _, -, -, -, hassembles'⟩ := build_returns h'
  rw [ht] at hassembles
  rw [ht'] at hassembles'
  have hlaid := hassembles.laidOut hplain
  have hlaid' := hassembles'.laidOut hplain'
  refine ⟨_, _, hlaid.toEntries_eq, hlaid'.toEntries_eq, ?_⟩
  rw [hlaid.equal_plainEntries hlaid']

namespace Library

def given : List Value :=
  [.str "en", .str "POETRY", .str "VERSE", .str "POETRY", .null, .null,
   .str "No longer supported", .null]

theorem given_plain : ∀ v ∈ given, v.PlainData := by
  simp only [given, List.forall_mem_cons]
  exact ⟨.str _, .str _, .str _, .str _, .null, .null, .str _, .null, List.forall_mem_nil _⟩

def unforcedRequest : Request Record := { request with settings := .given {} }

end Library

/-- Without the forced scalar the library has another context, and other plain data. -/
theorem build_plain_data_lossless_library :
    ∃ c c' entries entries', ((build Library.request).outcome {}).1 = .ok c ∧
      ((build Library.unforcedRequest).outcome {}).1 = .ok c' ∧
      c.given = Library.given ∧ c'.given = Library.given ∧
      (c.map Record.toValue).fields.toEntries = .ok entries ∧
      (c'.map Record.toValue).fields.toEntries = .ok entries' ∧
      ¬ (Value.ofEntries (entries.erase "raw_schema")).equal .apart
        (.ofEntries (entries'.erase "raw_schema")) = true := by
  obtain ⟨c, hc, hgiven, hscalars⟩ : ∃ c, ((build Library.request).outcome {}).1 = .ok c ∧
      c.given = Library.given ∧ c.scalars.length = 1 := ⟨_, rfl, rfl, rfl⟩
  obtain ⟨c', hc', hgiven', hscalars'⟩ :
      ∃ c, ((build Library.unforcedRequest).outcome {}).1 = .ok c ∧
        c.given = Library.given ∧ c.scalars.length = 0 := ⟨_, rfl, rfl, rfl⟩
  have hrecords : Library.unforcedRequest.transformers = .records := rfl
  obtain ⟨entries, entries', hentries, hentries', hequal⟩ :=
    build_plain_data_lossless (r := Library.request) rfl hrecords hc hc'
      (hgiven ▸ Library.given_plain) (hgiven' ▸ Library.given_plain) .apart
  refine ⟨c, c', entries, entries', hc, hc', hgiven, hgiven', hentries, hentries', ?_⟩
  rw [← hequal, Context.Fields.equal_eq_equalFields]
  intro h
  have hlength : some (c.scalars.map Record.toValue).length =
      some (c'.scalars.map Record.toValue).length :=
    Value.length?_get?_eq_of_equalFields h "scalars"
  rw [List.length_map, List.length_map, hscalars, hscalars'] at hlength
  cases hlength

end SchemaContext
