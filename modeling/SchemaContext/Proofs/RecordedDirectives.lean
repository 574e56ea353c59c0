import SchemaContext.Proofs.KindLists
import SchemaContext.Proofs.SettingsLayers

/-!
# Contexts without records of built-in directives

A setting says whether built-in directives get records. It is asked once, for the list of
definitions that is handed to the transformer of directives. What is applied to an
element is read by all definitions of the schema, whatever the setting, and so is the
flag. A build that leaves the built-in directives out therefore returns wherever one with
all directives does, and only the records of directives are fewer.
-/

namespace SchemaContext

theorem BuiltIn.not_isBuiltInDirective (name : String) :
    (!isBuiltInDirective name) =
      decide (name ∉ ["include", "skip", "deprecated", "specifiedBy", "oneOf"]) := by
  rw [isBuiltInDirective, List.contains_eq_mem, ← decide_not]
  rfl

def SettingsSource.includes (source : SettingsSource) : Except Failure Bool :=
  (fun settings => settings.includeSpecifiedDirectives.truthy) <$> source.settled

namespace Settings

variable {a : Settings}

theorem recordedDirectives_of_true (h : a.includeSpecifiedDirectives.truthy = true) (s : Schema) :
    a.recordedDirectives s = s.directives := by
  simp [recordedDirectives, h]

theorem recordedDirectives_of_false (h : a.includeSpecifiedDirectives.truthy = false)
    (s : Schema) :
    a.recordedDirectives s =
      s.directives.filter fun d => !BuiltIn.isBuiltInDirective d.name := by
  simp [recordedDirectives, h]

end Settings

section Contexts

variable {s : Schema} {kept : Entries Entry} {ds : List DirectiveDefinition} {c : Context Record}

theorem records_ofDirectives_filter {rs : List Record} (p : String → Bool)
    (h : Transformers.records.ofDirectives s ds = .ok rs) :
    Transformers.records.ofDirectives s (ds.filter fun d => p d.name) =
      .ok (rs.filter fun r => p r.name) := by
  rw [Transformers.records_ofDirectives_eq_ok_iff] at h ⊢
  refine List.rel_filter ?_ h
  rintro d _ ⟨x, hx, rfl⟩
  have hname : (Record.directive x).name = d.name := hx.name
  simp only [hname]

/-- A context without the records of some directives is one of the same types. -/
theorem Assembles.filterDirectives (h : Assembles .records s kept ds c) (p : String → Bool) :
    Assembles .records s kept (ds.filter fun d => p d.name)
      { c with definedDirectives := c.definedDirectives.filter fun r => p r.name } :=
  ⟨h.made, records_ofDirectives_filter p h.defined, h.uses, h.applied, h.schema⟩

end Contexts

/-- Settings that are the same but for the one key ask for the records of built-in directives or do
not. Where both ask or both do not, the builds come to the same. Where the first ask and the second
do not, and the first build returns a context, the second returns this context without the records
that bear the name of a built-in directive. The sink may be none, one of the library, or any whose
refusals have texts. -/
theorem build_leaves_out_built_in_records {r : Request Record} {settings' : SettingsSource}
    (j j' : Journal) (htells : r.Tells) (ht : r.transformers = .records)
    (h : r.settings.AgreesBut Settings.includeKey settings') :
    (settings'.includes = r.settings.includes →
      ((build { r with settings := settings' }).outcome j').1 = ((build r).outcome j).1) ∧
    (r.settings.includes = .ok true → settings'.includes = .ok false →
      ∀ c, ((build r).outcome j).1 = .ok c →
        ((build { r with settings := settings' }).outcome j').1 =
          .ok { c with
            definedDirectives := c.definedDirectives.filter fun x =>
              x.name ∉ ["include", "skip", "deprecated", "specifiedBy", "oneOf"] }) := by
  have hsettled := h.settled_eq (by decide) (by decide)
  constructor
  · intro hincludes
    have htells' : { r with settings := settings' }.Tells := htells
    rw [build_yields htells' j', build_yields htells j]
    refine bind_eq_of_map_eq (map_pair_eq hsettled hincludes) fun a b hab => ?_
    obtain ⟨hsame, htruthy⟩ := Prod.mk.inj hab
    simp only [Request.lateResult, Settings.forced,
      Settings.forcedTypes_of_defaultAt (by decide) hsame,
      Settings.recordedDirectives_congr htruthy]
  · intro hon hoff c hc
    obtain ⟨settings, s, forced, ⟨hresolved, hunwrapped, helements⟩, hwalked, hhash,
      hassembles⟩ := build_returns hc
    obtain ⟨a, ha, htrue⟩ := map_eq_ok_iff.1 hon
    obtain ⟨b, hb, hfalse⟩ := map_eq_ok_iff.1 hoff
    rw [ha, hb] at hsettled
    have hforced := Settings.forcedTypes_of_defaultAt (by decide) (Except.ok.inj hsettled)
    obtain rfl : a = settings :=
      Except.ok.inj (ha.symm.trans ((r.settings.resolve_yields j).symm.trans hresolved))
    rw [ht, Settings.recordedDirectives_of_true htrue] at hassembles
    have hr' : { r with settings := settings' }.Resolves j' b s forced :=
      ⟨(settings'.resolve_yields j').trans hb, hunwrapped, hforced ▸ helements⟩
    refine hr'.returns htells hwalked hhash ?_
    rw [ht, Settings.recordedDirectives_of_false hfalse]
    simp only [← BuiltIn.not_isBuiltInDirective]
    exact hassembles.filterDirectives fun name => !BuiltIn.isBuiltInDirective name

namespace Library

def shelved : DirectiveDefinition :=
  { name := "shelved", locations := ["OBJECT"], repeatable := false, description := none
    args := [] }

def shelvedSchema : Schema := { schema with directives := shelved :: schema.directives }

def includingSettings (value : Value) : SettingsSource :=
  .given { forcedTypes := .tuple [.str "String"], includeSpecifiedDirectives := value }

end Library

/-- With an empty text for the setting only the library's own directive has a record, and the flag
still tells of the deprecated genre. -/
theorem build_leaves_out_built_in_records_library :
    ∃ c, ((build (Library.requestOf Library.shelvedSchema)).outcome {}).1 = .ok c ∧
      c.definedDirectives.map Record.name =
        ["shelved", "include", "skip", "deprecated", "specifiedBy", "oneOf"] ∧
      ∃ c', ((build { Library.requestOf Library.shelvedSchema with
          settings := Library.includingSettings (.str "") }).outcome {}).1 = .ok c' ∧
        c'.definedDirectives.map Record.name = ["shelved"] ∧ c'.enums = c.enums ∧
        c'.usesDirectives = true := by
  have hagree : (Library.requestOf Library.shelvedSchema).settings.AgreesBut Settings.includeKey
      (Library.includingSettings (.str "")) := .given rfl
  have htells : (Library.requestOf Library.shelvedSchema).Tells := Request.tells_of_default rfl
  have hfewer := (build_leaves_out_built_in_records {} {} htells rfl hagree).2 rfl rfl _ rfl
  exact ⟨_, rfl, rfl, _, hfewer, rfl, rfl, rfl⟩

end SchemaContext
