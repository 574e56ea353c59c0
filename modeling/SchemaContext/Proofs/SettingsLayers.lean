import SchemaContext.Proofs.Outcome

/-!
# Settings that differ in one key

What a setting comes to depends on the entries of its own key alone. Layers that agree
on all entries but those of one known key come to settings that agree on all else, or to
the same failure: merging keeps the entries of different keys apart, and keys that are
settings are neither warned of nor do they stand in the way of the others.
-/

namespace SchemaContext

namespace Mapping

def without (m : Mapping) (key : String) : Mapping := m.filter fun e => e.1.text? ≠ some key

variable {m : Mapping} {key : String}

theorem text?_eq_of_sameKey {a b : Value} (h : sameKey a b = true) : a.text? = b.text? := by
  cases a with
  | str s =>
    cases b with
    | str t => simpa [sameKey_str, Value.text?] using h
    | _ => simp [sameKey, Value.equal] at h
  | _ =>
    cases b with
    | str t => simp [sameKey, Value.equal, Value.integer?, Value.entries?] at h
    | _ => rfl

theorem without_cons (e : Value × Value) (m : Mapping) (key : String) :
    without (e :: m) key = if e.1.text? = some key then without m key else e :: without m key := by
  by_cases h : e.1.text? = some key <;> simp [without, h]

/-- An entry that is put under the key is left out, and any other is put among those that stay. -/
theorem without_put (m : Mapping) (key : String) (k v : Value) :
    (m.put k v).without key =
      if k.text? = some key then m.without key else (m.without key).put k v := by
  induction m with
  | nil => by_cases hput : k.text? = some key <;> simp [put, without, hput]
  | cons e m ih =>
    by_cases hk : sameKey k e.1 = true
    · have htext := text?_eq_of_sameKey hk
      by_cases hkey : e.1.text? = some key
      · simp [put, hk, without_cons, htext, hkey]
      · simp [put, hk, without_cons, htext, hkey]
    · by_cases hkey : e.1.text? = some key
      · simp [put, hk, without_cons, hkey, ih]
      · by_cases hput : k.text? = some key
        · simp [put, hk, without_cons, hkey, ih, hput]
        · simp [put, hk, without_cons, hkey, ih, hput]

theorem update_cons (m : Mapping) (e : Value × Value) (n : Mapping) :
    m.update (e :: n) = (m.put e.1 e.2).update n := rfl

theorem without_update (m n : Mapping) (key : String) :
    (m.update n).without key = (m.without key).update (n.without key) := by
  induction n generalizing m with
  | nil => rfl
  | cons e n ih =>
    rw [update_cons, ih, without_put, without_cons]
    split <;> rfl

theorem get?_without (m : Mapping) {k : String} (h : k ≠ key) :
    (m.without key).get? (.str k) = m.get? (.str k) := by
  induction m with
  | nil => rfl
  | cons e m ih =>
    rw [without_cons]
    split
    case isTrue hkey =>
      have hother : sameKey (.str k) e.1 = false := by
        rw [Bool.eq_false_iff]
        intro hsame
        have htext := text?_eq_of_sameKey hsame
        rw [hkey] at htext
        exact h (Option.some.inj htext)
      rw [ih, get?, hother]
      rfl
    case isFalse => rw [get?, get?, ih]

theorem keys_without (m : Mapping) (key : String) :
    (m.without key).keys = m.keys.filter fun k => k.text? ≠ some key := by
  rw [keys, keys, List.filter_map]
  rfl

end Mapping

namespace Value

/-- Values can be put into a set unless one of them cannot, and the first of these is blamed. -/
theorem mapM_hashable_eq (vs : List Value) :
    vs.mapM hashable =
      match vs.findSome? unhashable? with
      | some sort => .error (.unhashable sort)
      | none => .ok vs := by
  induction vs with
  | nil => rfl
  | cons v vs ih =>
    rw [List.mapM_cons, hashable, List.findSome?_cons, ih]
    cases v.unhashable? with
    | some sort => rfl
    | none => cases vs.findSome? unhashable? <;> rfl

theorem findSome?_unhashable?_filter (vs : List Value) (key : String) :
    (vs.filter fun v => v.text? ≠ some key).findSome? unhashable? = vs.findSome? unhashable? := by
  induction vs with
  | nil => rfl
  | cons v vs ih =>
    by_cases hkey : v.text? = some key
    · obtain rfl := text?_eq_some_iff.1 hkey
      simpa [text?, unhashable?, List.findSome?_cons] using ih
    · simp only [ne_eq, hkey, not_false_eq_true, decide_true, List.filter_cons_of_pos,
        List.findSome?_cons]
      split
      · rfl
      · exact ih

end Value

namespace Settings

/-- The entries that a layer has; one that counts as false has none. -/
def layerEntries (layer : Value) : Except Failure Mapping :=
  if layer.truthy then layer.asMapping else .ok []

theorem layerEntries_dict (m : Mapping) : layerEntries (.dict m) = .ok m := by
  cases m <;> rfl

theorem mergeLayer_eq (below : Mapping) (layer : Value) :
    mergeLayer below layer = below.update <$> layerEntries layer := by
  unfold mergeLayer layerEntries
  split
  · rw [map_eq_pure_bind]
  · rfl

/-- Two layers have the same entries under other keys, or fail alike. -/
def LayersAgree (key : String) (layer layer' : Value) : Prop :=
  (Mapping.without · key) <$> layerEntries layer' = (Mapping.without · key) <$> layerEntries layer

section Merge

variable {key : String} {below below' : Mapping}

theorem mergeLayer_without {layer layer' : Value} (hbelow : below'.without key = below.without key)
    (h : LayersAgree key layer layer') :
    (Mapping.without · key) <$> mergeLayer below' layer' =
      (Mapping.without · key) <$> mergeLayer below layer := by
  rw [mergeLayer_eq, mergeLayer_eq, Functor.map_map, Functor.map_map]
  refine map_eq_of_map_eq h fun m m' hm => ?_
  rw [Mapping.without_update, Mapping.without_update, hbelow, hm]

theorem foldlM_mergeLayer_without {layers layers' : List Value}
    (h : List.Forall₂ (LayersAgree key) layers layers')
    (hbelow : below'.without key = below.without key) :
    (Mapping.without · key) <$> layers'.foldlM mergeLayer below' =
      (Mapping.without · key) <$> layers.foldlM mergeLayer below := by
  induction h generalizing below below' with
  | nil => exact congrArg Except.ok hbelow
  | @cons layer layer' _ _ hlayer _ ih =>
    rw [List.foldlM_cons, List.foldlM_cons, map_bind, map_bind]
    exact bind_eq_of_map_eq (mergeLayer_without hbelow hlayer) fun m m' hm => ih hm

end Merge

def defaultAt (key : String) (s : Settings) : Settings :=
  { includeSpecifiedDirectives :=
      if key = includeKey then .bool true else s.includeSpecifiedDirectives
    forcedTypes := if key = forcedKey then .tuple [] else s.forcedTypes
    emitEvents := if key = emitKey then .bool true else s.emitEvents }

def watched (s : Settings) : Settings := { s with emitEvents := .bool true }

theorem watched_eq (s : Settings) : s.watched = s.defaultAt emitKey := rfl

section DefaultAt

variable {key : String} {a b : Settings}

theorem forcedTypes_of_defaultAt (hkey : key ≠ forcedKey)
    (h : b.defaultAt key = a.defaultAt key) : b.forcedTypes = a.forcedTypes := by
  have hforced : (b.defaultAt key).forcedTypes = (a.defaultAt key).forcedTypes := by rw [h]
  simpa only [defaultAt, if_neg hkey] using hforced

theorem recordedDirectives_congr (h : b.includeSpecifiedDirectives.truthy =
    a.includeSpecifiedDirectives.truthy) (s : Schema) :
    b.recordedDirectives s = a.recordedDirectives s := by
  rw [recordedDirectives, recordedDirectives, h]

theorem recordedDirectives_of_defaultAt (hkey : key ≠ includeKey)
    (h : b.defaultAt key = a.defaultAt key) (s : Schema) :
    b.recordedDirectives s = a.recordedDirectives s := by
  have hinclude : (b.defaultAt key).includeSpecifiedDirectives =
      (a.defaultAt key).includeSpecifiedDirectives := by rw [h]
  simp only [defaultAt, if_neg hkey] at hinclude
  exact recordedDirectives_congr (congrArg Value.truthy hinclude) s

end DefaultAt

section OneKey

variable {key : String}

theorem defaultAt_ofMapping_without (m : Mapping) (key : String) (forced : Value) :
    defaultAt key { ofMapping (m.without key) with forcedTypes := forced } =
      defaultAt key { ofMapping m with forcedTypes := forced } := by
  have hfield (k : String) (v w : Value) :
      (if key = k then v else ((m.without key).get? (.str k)).getD w) =
        if key = k then v else (m.get? (.str k)).getD w := by
    split
    · rfl
    · rename_i hne
      rw [m.get?_without (Ne.symm hne)]
  simp only [defaultAt, ofMapping, hfield]

theorem settle_without (hforced : key ≠ forcedKey) (m : Mapping) :
    defaultAt key <$> settle (m.without key) = defaultAt key <$> settle m := by
  have hsame : (ofMapping (m.without key)).forcedTypes = (ofMapping m).forcedTypes := by
    simp only [ofMapping, m.get?_without hforced.symm]
  simp only [settle, hsame, map_bind, map_pure, defaultAt_ofMapping_without]

theorem read_without (hknown : key ∈ keys) (hforced : key ≠ forcedKey) (m : Mapping) :
    defaultAt key <$> read (m.without key) = defaultAt key <$> read m := by
  have hkeys : (m.without key).keys.findSome? Value.unhashable? =
      m.keys.findSome? Value.unhashable? := by
    rw [m.keys_without, Value.findSome?_unhashable?_filter]
  have hunknown : unknownKeys (m.without key).keys = unknownKeys m.keys := by
    rw [m.keys_without, unknownKeys, List.filter_filter, unknownKeys]
    congr 1
    apply List.filter_congr
    intro k _
    by_cases hkey : k.text? = some key
    · have hknown : isKnown k = true := by simpa [isKnown, hkey] using hknown
      simp [hknown]
    · simp [hkey]
  unfold read
  rw [Value.mapM_hashable_eq, Value.mapM_hashable_eq, hkeys]
  cases m.keys.findSome? Value.unhashable? with
  | some sort => rfl
  | none =>
    change defaultAt key <$> (sortKeys _ >>= fun _ => _) =
      defaultAt key <$> (sortKeys _ >>= fun _ => _)
    rw [hunknown, map_bind, map_bind, settle_without hforced]

variable {project project' : Option Value} {overrides overrides' : Value}
  (hproject : (projectEntries project').without key = (projectEntries project).without key)
  (hoverrides : LayersAgree key overrides overrides')
include hproject hoverrides

/-- Layers that differ under one key are merged into mappings that differ under it alone. -/
theorem merge_agree :
    (Mapping.without · key) <$>
        merge [.ofEntries defaults, .dict (projectEntries project'), overrides'] =
      (Mapping.without · key) <$>
        merge [.ofEntries defaults, .dict (projectEntries project), overrides] := by
  have hdefaults : LayersAgree key (.ofEntries defaults) (.ofEntries defaults) := rfl
  have hconfiguration : LayersAgree key (.dict (projectEntries project))
      (.dict (projectEntries project')) := by
    rw [LayersAgree, layerEntries_dict, layerEntries_dict]
    exact congrArg Except.ok hproject
  have hlayers := List.Forall₂.cons hdefaults (.cons hconfiguration (.cons hoverrides .nil))
  exact foldlM_mergeLayer_without hlayers (Eq.refl (Mapping.without [] _))

theorem loaded_agree (hknown : key ∈ keys) (hforced : key ≠ forcedKey) :
    defaultAt key <$> loaded project' overrides' = defaultAt key <$> loaded project overrides := by
  rw [loaded, loaded, map_bind, map_bind]
  refine bind_eq_of_map_eq (merge_agree hproject hoverrides) fun m m' hm => ?_
  rw [← read_without hknown hforced m', hm, read_without hknown hforced]

end OneKey

theorem exists_of_loaded {project : Option Value} {overrides : Value} {a : Settings}
    (h : loaded project overrides = .ok a) :
    ∃ m forced, merge [.ofEntries defaults, .dict (projectEntries project), overrides] = .ok m ∧
      a = { ofMapping m with forcedTypes := forced } := by
  obtain ⟨m, hmerged, hread⟩ := bind_eq_ok_iff.1 h
  obtain ⟨_, -, hread⟩ := bind_eq_ok_iff.1 hread
  obtain ⟨_, -, hsettle⟩ := bind_eq_ok_iff.1 hread
  obtain ⟨forced, -, heq⟩ := bind_eq_ok_iff.1 hsettle
  exact ⟨m, forced, hmerged, (Except.ok.inj heq).symm⟩

/-- Forced types may be refused, but where neither are, the layers come to settings that differ in
them alone. -/
theorem loaded_agree_forced {project project' : Option Value} {overrides overrides' : Value}
    (hproject : (projectEntries project').without forcedKey =
      (projectEntries project).without forcedKey)
    (hoverrides : LayersAgree forcedKey overrides overrides') {a b : Settings}
    (ha : loaded project overrides = .ok a) (hb : loaded project' overrides' = .ok b) :
    b.defaultAt forcedKey = a.defaultAt forcedKey := by
  obtain ⟨m, forced, hm, rfl⟩ := exists_of_loaded ha
  obtain ⟨m', forced', hm', rfl⟩ := exists_of_loaded hb
  have hmerged := merge_agree hproject hoverrides
  rw [hm, hm'] at hmerged
  have hwithout : m'.without forcedKey = m.without forcedKey := Except.ok.inj hmerged
  rw [← defaultAt_ofMapping_without, hwithout, defaultAt_ofMapping_without]
  rfl

theorem loaded_defaults : loaded none .null = .ok { forcedTypes := .tuple [] } := by
  have hlaid : Mapping.update [] (Mapping.ofEntries defaults) = Mapping.ofEntries defaults := by
    simp [defaults, Mapping.ofEntries, Mapping.update, Mapping.put, Mapping.sameKey_str, includeKey,
      forcedKey, emitKey]
  have hmerged : merge [.ofEntries defaults, .dict (projectEntries none), .null] =
      .ok (Mapping.ofEntries defaults) := by
    rw [← hlaid]
    rfl
  have hfields : ofMapping (Mapping.ofEntries defaults) = { forcedTypes := .list [] } := by
    rw [ofMapping, Mapping.get?_ofEntries, Mapping.get?_ofEntries, Mapping.get?_ofEntries]
    rfl
  have hsettled : settle (Mapping.ofEntries defaults) = .ok { forcedTypes := .tuple [] } := by
    rw [settle, hfields]
    rfl
  rw [loaded, hmerged]
  change read (Mapping.ofEntries defaults) = _
  rw [read, hsettled]
  rfl

end Settings

/-- The settings of two calls are the same but for whether events are emitted: as they are given, or
by all entries of their layers. -/
inductive SettingsSource.AgreesButForEvents : SettingsSource → SettingsSource → Prop
  | given {s s' : Settings}
      (hinclude : s'.includeSpecifiedDirectives = s.includeSpecifiedDirectives)
      (hforced : s'.forcedTypes = s.forcedTypes) : AgreesButForEvents (.given s) (.given s')
  | layers {project project' : Option Value} {overrides overrides' : Value}
      (hproject : (Settings.projectEntries project').without Settings.emitKey =
        (Settings.projectEntries project).without Settings.emitKey)
      (hoverrides : Settings.LayersAgree Settings.emitKey overrides overrides') :
      AgreesButForEvents (.layers project overrides) (.layers project' overrides')

theorem SettingsSource.AgreesButForEvents.settled {source source' : SettingsSource}
    (h : source.AgreesButForEvents source') :
    Settings.watched <$> source'.settled = Settings.watched <$> source.settled := by
  cases h with
  | @given s s' hinclude hforced =>
    have hsame : s'.watched = s.watched := by
      rw [Settings.watched, Settings.watched, hinclude, hforced]
    exact congrArg Except.ok hsame
  | layers hproject hoverrides =>
    rw [settled_layers, settled_layers]
    exact Settings.loaded_agree hproject hoverrides (by decide) (by decide)

/-- The settings of two calls are the same but for what is under one key: in what they come to, or
in all entries of their layers. -/
inductive SettingsSource.AgreesBut (key : String) : SettingsSource → SettingsSource → Prop
  | settled {source source' : SettingsSource}
      (h : Settings.defaultAt key <$> source'.settled = Settings.defaultAt key <$> source.settled) :
      AgreesBut key source source'
  | layers {project project' : Option Value} {overrides overrides' : Value}
      (hproject : (Settings.projectEntries project').without key =
        (Settings.projectEntries project).without key)
      (hoverrides : Settings.LayersAgree key overrides overrides') :
      AgreesBut key (.layers project overrides) (.layers project' overrides')

namespace SettingsSource.AgreesBut

variable {source source' : SettingsSource}

theorem given {key : String} {a b : Settings} (h : b.defaultAt key = a.defaultAt key) :
    AgreesBut key (.given a) (.given b) := .settled (congrArg Except.ok h)

theorem settled_eq {key : String} (h : source.AgreesBut key source') (hknown : key ∈ Settings.keys)
    (hforced : key ≠ Settings.forcedKey) :
    Settings.defaultAt key <$> source'.settled = Settings.defaultAt key <$> source.settled := by
  cases h with
  | settled h => exact h
  | layers hproject hoverrides =>
    rw [settled_layers, settled_layers]
    exact Settings.loaded_agree hproject hoverrides hknown hforced

theorem defaultAt_forcedKey_eq (h : source.AgreesBut Settings.forcedKey source') {a b : Settings}
    (ha : source.settled = .ok a) (hb : source'.settled = .ok b) :
    b.defaultAt Settings.forcedKey = a.defaultAt Settings.forcedKey := by
  cases h with
  | settled h =>
    rw [ha, hb] at h
    exact Except.ok.inj h
  | layers hproject hoverrides =>
    rw [settled_layers] at ha hb
    exact Settings.loaded_agree_forced hproject hoverrides ha hb

end SettingsSource.AgreesBut

end SchemaContext
