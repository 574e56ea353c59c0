import SchemaContext.Proofs.Description
import SchemaContext.Proofs.Reachability

/-!
# What fields and arguments refer to

Fields and arguments tell by a flag of which kind their type is. In a schema whose
references are well typed, each of them has exactly one flag, and the name beside it is
one that the described type refers to.
-/

namespace SchemaContext

def Kind.flag : Kind → String
  | object => "is_type"
  | scalar => "is_scalar"
  | interface => "is_interface"
  | union => "is_union"
  | inputObject => "is_input_type"
  | enum => "is_enum"

def TypeBody.isInput (b : TypeBody) : Bool := b.isScalar || b.isEnum || b.isInputObject

theorem TypeBody.isObject_iff {b : TypeBody} : b.isObject = true ↔ b.kind = .object := by
  cases b <;> simp [isObject, kind]

theorem TypeBody.isInterface_iff {b : TypeBody} : b.isInterface = true ↔ b.kind = .interface := by
  cases b <;> simp [isInterface, kind]

theorem TypeBody.isInput_iff {b : TypeBody} :
    b.isInput = true ↔ b.kind ∈ [Kind.scalar, Kind.enum, Kind.inputObject] := by
  cases b <;> simp [isInput, isScalar, isEnum, isInputObject, kind]

/-- Whether the references of a type point to types that can stand where they do. -/
def TypeBody.WellTyped (s : Schema) : TypeBody → Prop
  | object interfaces fields | interface interfaces fields =>
    (∀ i ∈ interfaces, s.refersTo isInterface i = true) ∧
      ∀ f ∈ fields, s.refersTo isOutput f.type.name = true ∧
        ∀ a ∈ f.args, s.refersTo isInput a.type.name = true
  | inputObject _ fields => ∀ f ∈ fields, s.refersTo isInput f.type.name = true
  | union members => ∀ m ∈ members, s.refersTo isObject m = true
  | enum _ | scalar _ => True

instance (s : Schema) : (b : TypeBody) → Decidable (b.WellTyped s)
  | .object _ _ | .interface _ _ => inferInstanceAs (Decidable (_ ∧ _))
  | .inputObject _ fields =>
    inferInstanceAs (Decidable (∀ f ∈ fields, s.refersTo TypeBody.isInput f.type.name = true))
  | .union members =>
    inferInstanceAs (Decidable (∀ m ∈ members, s.refersTo TypeBody.isObject m = true))
  | .enum _ | .scalar _ => inferInstanceAs (Decidable True)

structure Schema.WellTyped (s : Schema) : Prop where
  types : ∀ e ∈ s.typeMap.entries, ∀ t, e.2 = .type t → t.body.WellTyped s
  directives : ∀ d ∈ s.directives, ∀ a ∈ d.args, s.refersTo TypeBody.isInput a.type.name = true

namespace FieldRecord

def Flagged (r : FieldRecord) (k : Kind) : Prop := r.toValue.field? k.flag = some (.bool true)

theorem flagged_iff {r : FieldRecord} {k : Kind} : r.Flagged k ↔ r.type.kind = some k := by
  cases k <;> simp [Flagged, Kind.flag, toValue, ResolvedType.wrapperEntries, Value.field?,
    Entries.get?_cons, TypeUse.isOf]

end FieldRecord

namespace ArgumentRecord

def Flagged (r : ArgumentRecord) (k : Kind) : Prop := r.toValue.field? k.flag = some (.bool true)

theorem flagged_iff {r : ArgumentRecord} {k : Kind} :
    r.Flagged k ↔ r.type.kind = some k ∧ k ∈ [Kind.scalar, Kind.enum, Kind.inputObject] := by
  cases k <;> simp [Flagged, Kind.flag, toValue, ResolvedType.wrapperEntries, Value.field?,
    Entries.get?_cons, TypeUse.isOf]

end ArgumentRecord

section References

variable {s : Schema} {n : String} {p : TypeBody → Bool}

theorem refersTo_iff : s.refersTo p n = true ↔ ∃ t, s.resolve? n = some t ∧ p t.body = true := by
  simp [Schema.refersTo, Schema.body?, Option.any_eq_true]

/-- The use of a type by a name among those given, the type having a property. -/
def TypeUse.PointsTo (s : Schema) (p : TypeBody → Bool) (names : List String) (u : TypeUse) :
    Prop :=
  u.name ∈ names ∧ ∃ t, s.resolve? u.name = some t ∧ u.kind = some t.kind ∧ p t.body = true

theorem pointsTo_typeUse {names : List String} {ref : TypeRef} (hn : ref.name ∈ names)
    (hp : s.refersTo p ref.name = true) : (s.typeUse ref).PointsTo s p names := by
  obtain ⟨t, ht, hbody⟩ := refersTo_iff.1 hp
  refine ⟨hn, t, ht, ?_, hbody⟩
  simp [Schema.typeUse, Schema.body?, ht, NamedType.kind]

theorem TypeUse.PointsTo.mono {q : TypeBody → Bool} {names names' : List String} {u : TypeUse}
    (h : u.PointsTo s p names) (hnames : names ⊆ names') (hpq : ∀ b, p b = true → q b = true) :
    u.PointsTo s q names' := by
  obtain ⟨hn, t, ht, hk, hp⟩ := h
  exact ⟨hnames hn, t, ht, hk, hpq _ hp⟩

/-- A use that points to a type is of exactly one kind. -/
theorem TypeUse.PointsTo.existsUnique_kind {names : List String} {u : TypeUse}
    (h : u.PointsTo s p names) : ∃! k, u.kind = some k := by
  obtain ⟨-, t, -, hk, -⟩ := h
  refine ⟨t.kind, hk, ?_⟩
  intro k hk'
  exact Option.some.inj (hk'.symm.trans hk)

theorem arguments_pointTo {as : List InputValue} {rs : List ArgumentRecord}
    (h : List.Forall₂ (ArgumentRecord.Describes s) as rs)
    (hw : ∀ a ∈ as, s.refersTo TypeBody.isInput a.type.name = true) :
    ∀ r ∈ rs, r.type.PointsTo s TypeBody.isInput (as.map fun a => a.type.name) := by
  intro r hr
  obtain ⟨a, ha, hdescribes⟩ := exists_mem_of_forall₂ h hr
  rw [hdescribes.type]
  exact pointsTo_typeUse (List.mem_map_of_mem ha) (hw a ha)

end References

def Record.fields : Record → List FieldRecord
  | type r => r.fields
  | interface r => r.fields
  | enum _ | union _ | scalar _ | directive _ => []

def Record.arguments : Record → List ArgumentRecord
  | directive r => r.arguments
  | type _ | interface _ | enum _ | union _ | scalar _ => []

def FieldRecord.PointsTo (s : Schema) (names : List String) (r : FieldRecord) : Prop :=
  r.type.PointsTo s (fun _ => true) names ∧
    ∀ a ∈ r.arguments, a.type.PointsTo s TypeBody.isInput names

section Records

variable {s : Schema}

theorem fields_pointTo {fs : List Field} {rs : List FieldRecord}
    (h : List.Forall₂ (FieldRecord.Describes s) fs rs)
    (hw : ∀ f ∈ fs, s.refersTo TypeBody.isOutput f.type.name = true ∧
      ∀ a ∈ f.args, s.refersTo TypeBody.isInput a.type.name = true) :
    ∀ r ∈ rs,
      r.PointsTo s (fs.flatMap fun f => f.type.name :: f.args.map fun a => a.type.name) := by
  intro r hr
  obtain ⟨f, hf, hdescribes⟩ := exists_mem_of_forall₂ h hr
  have hsub : (f.type.name :: f.args.map fun a => a.type.name) ⊆
      fs.flatMap fun f => f.type.name :: f.args.map fun a => a.type.name :=
    fun n hn => List.mem_flatMap.2 ⟨f, hf, hn⟩
  constructor
  · rw [hdescribes.type]
    have hpoints := pointsTo_typeUse (hsub List.mem_cons_self) (hw f hf).1
    exact hpoints.mono (List.Subset.refl _) fun _ _ => rfl
  · intro a ha
    have hpoints := arguments_pointTo hdescribes.arguments (hw f hf).2 a ha
    exact hpoints.mono (fun n hn => hsub (List.mem_cons_of_mem _ hn)) fun _ hp => hp

theorem inputFields_pointTo {fs : List InputValue} {rs : List FieldRecord}
    (h : List.Forall₂ (FieldRecord.DescribesInput s) fs rs)
    (hw : ∀ f ∈ fs, s.refersTo TypeBody.isInput f.type.name = true) :
    ∀ r ∈ rs, r.PointsTo s (fs.map fun f => f.type.name) := by
  intro r hr
  obtain ⟨f, hf, hdescribes⟩ := exists_mem_of_forall₂ h hr
  have hname : f.type.name ∈ fs.map fun f => f.type.name := List.mem_map_of_mem hf
  constructor
  · rw [hdescribes.type]
    have hpoints := pointsTo_typeUse hname (hw f hf)
    exact hpoints.mono (List.Subset.refl _) fun _ _ => rfl
  · rw [hdescribes.arguments]
    exact fun a ha => absurd ha List.not_mem_nil

theorem FieldRecord.PointsTo.mono {names names' : List String} {r : FieldRecord}
    (h : r.PointsTo s names) (hsub : names ⊆ names') : r.PointsTo s names' :=
  ⟨h.1.mono hsub fun _ hp => hp, fun a ha => (h.2 a ha).mono hsub fun _ hp => hp⟩

theorem Record.Describes.fields_pointTo {t : NamedType} {r : Record} (h : r.Describes s t)
    (hw : t.body.WellTyped s) : ∀ f ∈ r.fields, f.PointsTo s t.body.references := by
  cases h with
  | object body _ _ parts _ _ =>
    rw [body] at hw ⊢
    intro f hf
    exact (SchemaContext.fields_pointTo parts hw.2 f hf).mono (List.subset_append_right _ _)
  | inputObject body _ _ parts _ _ _ =>
    rw [body] at hw ⊢
    exact inputFields_pointTo parts hw
  | interface body _ _ parts _ _ =>
    rw [body] at hw ⊢
    intro f hf
    exact (SchemaContext.fields_pointTo parts hw.2 f hf).mono (List.subset_append_right _ _)
  | enum _ _ _ _ _ => exact fun f hf => absurd hf List.not_mem_nil
  | union _ _ _ _ => exact fun f hf => absurd hf List.not_mem_nil
  | scalar _ _ _ _ => exact fun f hf => absurd hf List.not_mem_nil

end Records
end SchemaContext
