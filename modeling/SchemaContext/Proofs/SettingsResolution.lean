import SchemaContext.Proofs.KeyOrder

/-!
# Resolution of settings

A setting is looked up key by key: the overrides of a call come first, then the
configuration of the project, then the library's defaults. Merging the layers and reading
the settings off the merged mapping comes to the same. Only the forced types can be
refused, and only those that are chosen. What is no setting, and a configuration that is
no dictionary, is warned of and has no other effect, unless the keys that are no settings
cannot be put in order to be told.
-/

namespace SchemaContext

namespace Journal

/-- Lines of one level are all logged, or none of them. -/
theorem foldl_log {level : LogLevel} {lines : List LogLine} (h : ∀ line ∈ lines, line.level = level)
    (j : Journal) :
    lines.foldl log j = { j with lines := j.lines ++ if j.enabled level then lines else [] } := by
  induction lines generalizing j with
  | nil => simp
  | cons line lines ih =>
    obtain ⟨hline, hlines⟩ := List.forall_mem_cons.1 h
    rw [List.foldl_cons, ih hlines, log, hline]
    by_cases henabled : j.enabled level = true
    · have hafter : enabled { j with lines := j.lines ++ [line] } level = true := henabled
      simp [henabled, hafter]
    · simp [henabled]

end Journal

namespace Settings

def ignoredLines : Option Value → List LogLine
  | none | some (.dict _) => []
  | some v =>
    if v.truthy then
      [⟨.settings, .warning,
        .text ("Ignoring " ++ projectKey ++ ": expected a dict, got " ++ v.sort)⟩]
    else []

def unknownLines (ks : List Value) : List LogLine :=
  if ks.isEmpty then []
  else [⟨.settings, .warning,
    .text ("Unknown codegen settings ignored: " ++ Text.bracketed (ks.map Value.written))⟩]

theorem level_of_mem_ignoredLines {project : Option Value} :
    ∀ line ∈ ignoredLines project, line.level = .warning := by
  unfold ignoredLines
  split
  · simp
  · simp
  · split <;> simp

theorem level_of_mem_unknownLines {ks : List Value} :
    ∀ line ∈ unknownLines ks, line.level = .warning := by
  unfold unknownLines
  split <;> simp

theorem outcome_projectLayer (project : Option Value) (j : Journal) :
    (projectLayer project).outcome j =
      (.ok (.dict (projectEntries project)), (ignoredLines project).foldl Journal.log j) := by
  unfold projectLayer projectEntries ignoredLines
  cases project with
  | none => rfl
  | some v =>
    cases v with
    | dict entries => rfl
    | _ =>
      dsimp only [Option.getD_some]
      split <;> rfl

def Comparable (ks : List Value) : Prop := ks.Pairwise fun k k' => ∃ r, k'.before k = .ok r

theorem unordered?_eq_none_iff_comparable {ks : List Value} :
    unordered? ks = none ↔ Comparable ks := by
  rw [unordered?_eq_none_iff, Comparable]
  simp

/-- Keys of which any two have an order are warned of in this order. -/
theorem outcome_warnUnknown {ks : List Value} (h : Comparable ks) (j : Journal) :
    (warnUnknown ks).outcome j =
      (.ok (), (unknownLines (ks.mergeSort inOrder)).foldl Journal.log j) := by
  have hempty : (ks.mergeSort inOrder).isEmpty = ks.isEmpty := by
    rw [Bool.eq_iff_iff, List.isEmpty_iff, List.isEmpty_iff,
      ← List.length_eq_zero_iff, ← List.length_eq_zero_iff, List.length_mergeSort]
  unfold warnUnknown unknownLines
  rw [hempty]
  split
  · rfl
  · rw [Run.outcome_bind, Run.outcome_ofExcept, sortKeys, unordered?_eq_none_iff_comparable.2 h]
    rfl

theorem outcome_warnUnknown_of_not_comparable {ks : List Value} (h : ¬Comparable ks) :
    ∃ left right, ∀ j, (warnUnknown ks).outcome j = (.error (.unordered left right), j) := by
  obtain ⟨f, hf⟩ := Option.ne_none_iff_exists'.1 (mt unordered?_eq_none_iff_comparable.1 h)
  obtain ⟨left, right, rfl⟩ := exists_of_unordered? hf
  refine ⟨left, right, fun j => ?_⟩
  cases ks with
  | nil => cases hf
  | cons k ks =>
    have hsome : (k :: ks).isEmpty ≠ true := Bool.false_ne_true
    rw [warnUnknown, if_neg hsome, Run.outcome_bind, Run.outcome_ofExcept, sortKeys, hf]

theorem forcedElements_eq_ok_iff {v w : Value} :
    forcedElements v = .ok w ↔
      (v.truthy = false ∧ w = .tuple []) ∨
      (v.truthy = true ∧ ∃ items, v.elements? = some items ∧ w = .tuple items) := by
  unfold forcedElements Value.elements
  cases v.truthy with
  | false => simp [eq_comm]
  | true =>
    cases v.elements? with
    | none => simp [bind, Except.bind]
    | some items => simp [bind, Except.bind, pure, Except.pure, eq_comm]

theorem forcedElements_eq_error_iff {v : Value} {f : Failure} :
    forcedElements v = .error f ↔
      v.truthy = true ∧ v.elements? = none ∧ f = .notIterable v.sort := by
  unfold forcedElements Value.elements
  cases v.truthy with
  | false => simp
  | true =>
    cases v.elements? with
    | none => simp [bind, Except.bind, eq_comm]
    | some items => simp [bind, Except.bind, pure, Except.pure]

/-- Of the settings in a mapping only the forced types are looked into. -/
theorem settle_eq_map (m : Mapping) :
    settle m = (fun w => { ofMapping m with forcedTypes := w }) <$>
      forcedElements (ofMapping m).forcedTypes := by
  rw [settle, map_eq_pure_bind]

/-- The layers over the library's defaults. A dictionary has no key twice, and its keys can be in
a set. -/
structure Layers where
  /-- The configuration of the project, if there is one. -/
  project : Option Value
  /-- The overrides of the call, if there are any. -/
  overrides : Option Mapping
  project_distinct : (projectEntries project).Distinct
  project_hashable : ∀ k ∈ (projectEntries project).keys, k.unhashable? = none
  overrides_distinct : (overrides.getD []).Distinct
  overrides_hashable : ∀ k ∈ (overrides.getD []).keys, k.unhashable? = none

namespace Layers

variable {l : Layers}

def configured (l : Layers) : Mapping := projectEntries l.project

def given (l : Layers) : Mapping := l.overrides.getD []

def load (l : Layers) : Run Settings := Settings.load l.project (l.overrides.elim .null .dict)

/-- The value of a setting in the highest layer that has its key. -/
def chosen (l : Layers) (key : String) : Option Value :=
  (l.given.get? (.str key)).or ((l.configured.get? (.str key)).or (defaults.get? key))

/-- The settings have the values that are chosen, and of the forced types the elements. -/
structure Resolves (l : Layers) (s : Settings) : Prop where
  included : l.chosen includeKey = some s.includeSpecifiedDirectives
  emitted : l.chosen emitKey = some s.emitEvents
  forced : ∃ v, l.chosen forcedKey = some v ∧
    ((v.truthy = false ∧ s.forcedTypes = .tuple []) ∨
      (v.truthy = true ∧ ∃ items, v.elements? = some items ∧ s.forcedTypes = .tuple items))

/-- The forced types that are chosen count as true and have no elements. -/
def Refuses (l : Layers) (v : Value) : Prop :=
  l.chosen forcedKey = some v ∧ v.truthy = true ∧ v.elements? = none

def merged (l : Layers) : Mapping :=
  ((Mapping.ofEntries defaults).update l.configured).update l.given

/-- The keys that are no settings, each once. -/
def unknown (l : Layers) : List Value := unknownKeys l.merged.keys

/-- The keys that are no settings can be put in this row, each before all that follow. -/
def Row (l : Layers) (row : List Value) : Prop :=
  row.Perm l.unknown ∧ row.Pairwise Value.Precedes

theorem merge_eq (l : Layers) :
    merge [.ofEntries defaults, .dict (projectEntries l.project), l.overrides.elim .null .dict] =
      .ok l.merged := by
  have hdefaults : Mapping.update [] (Mapping.ofEntries defaults) = Mapping.ofEntries defaults := by
    have hlaid : Entries.update [] defaults = defaults := rfl
    exact (Mapping.update_ofEntries [] defaults).trans (congrArg Mapping.ofEntries hlaid)
  have hoverrides : layerEntries (l.overrides.elim .null .dict) = .ok l.given := by
    unfold given
    cases l.overrides with
    | none => rfl
    | some m => exact layerEntries_dict m
  have hstep (below : Mapping) {layer : Value} {entries : Mapping}
      (h : layerEntries layer = .ok entries) :
      mergeLayer below layer = .ok (below.update entries) := by
    rw [mergeLayer_eq, h]
    rfl
  have hmerged : merge
      [.ofEntries defaults, .dict (projectEntries l.project), l.overrides.elim .null .dict] =
        .ok (((Mapping.update [] (Mapping.ofEntries defaults)).update l.configured).update
          l.given) := by
    simp only [merge, List.foldlM_cons, hstep _ (layerEntries_dict _), hstep _ hoverrides,
      Value.ofEntries]
    rfl
  rw [hmerged, hdefaults, merged]

theorem get?_merged (l : Layers) (key : String) : l.merged.get? (.str key) = l.chosen key := by
  have hgiven : l.given.Distinct := l.overrides_distinct
  have hconfigured : l.configured.Distinct := l.project_distinct
  rw [merged, Mapping.get?_update_str _ hgiven, Mapping.get?_update_str _ hconfigured,
    Mapping.get?_ofEntries, chosen]

theorem chosen_eq_getD (key : String) (hkey : key ∈ keys) (v : Value) :
    l.chosen key = some ((l.merged.get? (.str key)).getD v) := by
  have hdefault : (defaults.get? key).isSome = true := by
    have hall : ∀ key ∈ keys, (defaults.get? key).isSome = true := by decide
    exact hall key hkey
  have hsome : (l.chosen key).isSome = true := by
    rw [chosen, Option.isSome_or, Option.isSome_or, hdefault, Bool.or_true, Bool.or_true]
  obtain ⟨w, hw⟩ := Option.isSome_iff_exists.1 hsome
  rw [get?_merged, hw]
  rfl

theorem settle_merged_eq_ok_iff {s : Settings} : settle l.merged = .ok s ↔ l.Resolves s := by
  have hincluded := l.chosen_eq_getD includeKey (by decide) (.bool true)
  have hforced := l.chosen_eq_getD forcedKey (by decide) (.tuple [])
  have hemitted := l.chosen_eq_getD emitKey (by decide) (.bool true)
  rw [settle_eq_map, map_eq_ok_iff]
  simp only [forcedElements_eq_ok_iff]
  constructor
  · rintro ⟨w, hw, rfl⟩
    exact ⟨hincluded, hemitted, _, hforced, hw⟩
  · rintro ⟨hi, he, v, hv, hw⟩
    obtain ⟨included, forced, emitted⟩ := s
    rw [hincluded, Option.some.injEq] at hi
    rw [hemitted, Option.some.injEq] at he
    rw [hforced, Option.some.injEq] at hv
    subst hi he hv
    exact ⟨forced, hw, rfl⟩

theorem settle_merged_eq_error_iff {f : Failure} :
    settle l.merged = .error f ↔ ∃ v, l.Refuses v ∧ f = .notIterable v.sort := by
  have hforced := l.chosen_eq_getD forcedKey (by decide) (.tuple [])
  have hsettled : settle l.merged = .error f ↔
      forcedElements (ofMapping l.merged).forcedTypes = .error f := by
    rw [settle_eq_map]
    cases forcedElements (ofMapping l.merged).forcedTypes <;> simp
  rw [hsettled, forcedElements_eq_error_iff]
  constructor
  · rintro ⟨htruthy, helements, rfl⟩
    exact ⟨_, ⟨hforced, htruthy, helements⟩, rfl⟩
  · rintro ⟨v, ⟨hv, htruthy, helements⟩, rfl⟩
    rw [hforced, Option.some.injEq] at hv
    subst hv
    exact ⟨htruthy, helements, rfl⟩

theorem settle_merged_congr {l' : Layers} (h : ∀ key ∈ keys, l'.chosen key = l.chosen key) :
    settle l'.merged = settle l.merged := by
  have hfields : ofMapping l'.merged = ofMapping l.merged := by
    simp only [ofMapping, get?_merged]
    rw [h includeKey (by decide), h forcedKey (by decide), h emitKey (by decide)]
  rw [settle_eq_map, settle_eq_map, hfields]

theorem keys_merged (l : Layers) :
    l.merged.keys = l.given.keys.foldl Mapping.addKey
      (l.configured.keys.foldl Mapping.addKey (keys.map .str)) := by
  rw [merged, Mapping.keys_update, Mapping.keys_update]
  rfl

theorem told_merged (l : Layers) : Mapping.Told l.merged.keys := by
  have hdefaults : Mapping.Told (keys.map .str) := by
    rw [Mapping.Told, List.pairwise_map]
    simp only [Mapping.sameKey_str]
    decide
  rw [keys_merged]
  exact (hdefaults.foldl_addKey _).foldl_addKey _

theorem mem_keys_merged {k : Value} (h : k ∈ l.merged.keys) :
    k ∈ keys.map Value.str ∨ k ∈ l.configured.keys ∨ k ∈ l.given.keys := by
  rw [keys_merged] at h
  rcases Mapping.mem_foldl_addKey h with h | h
  · exact (Mapping.mem_foldl_addKey h).imp_right .inl
  · exact .inr (.inr h)

theorem exists_mem_keys_merged {k : Value} (h : k ∈ l.configured.keys ∨ k ∈ l.given.keys) :
    ∃ k' ∈ l.merged.keys, k' = k ∨ Mapping.sameKey k k' = true := by
  rw [keys_merged]
  rcases h with h | h
  · obtain ⟨k', hk', hsame⟩ := Mapping.exists_mem_foldl_addKey (keys.map .str) h
    exact ⟨k', Mapping.subset_foldl_addKey _ _ hk', hsame⟩
  · exact Mapping.exists_mem_foldl_addKey _ h

theorem unknown_eq (l : Layers) : l.unknown = l.merged.keys.filter fun k => !isKnown k :=
  Mapping.distinctKeys_of_told (l.told_merged.sublist List.filter_sublist)

theorem told_unknown (l : Layers) : Mapping.Told l.unknown := by
  rw [unknown_eq]
  exact l.told_merged.sublist List.filter_sublist

theorem mem_of_mem_unknown {k : Value} (h : k ∈ l.unknown) :
    isKnown k = false ∧ (k ∈ l.configured.keys ∨ k ∈ l.given.keys) := by
  rw [unknown_eq, List.mem_filter, Bool.not_eq_true'] at h
  obtain ⟨hmem, hknown⟩ := h
  rcases mem_keys_merged hmem with hdefault | hlayer
  · obtain ⟨n, hn, rfl⟩ := List.mem_map.1 hdefault
    have hsetting : isKnown (.str n) = true := List.contains_iff_mem.2 hn
    rw [hsetting] at hknown
    cases hknown
  · exact ⟨hknown, hlayer⟩

theorem exists_mem_unknown {k : Value} (h : k ∈ l.configured.keys ∨ k ∈ l.given.keys)
    (hknown : isKnown k = false) :
    ∃ k' ∈ l.unknown, k' = k ∨ Mapping.sameKey k k' = true := by
  obtain ⟨k', hk', hsame⟩ := exists_mem_keys_merged h
  have htext : k'.text? = k.text? := by
    rcases hsame with rfl | hsame
    · rfl
    · exact (Mapping.text?_eq_of_sameKey hsame).symm
  refine ⟨k', ?_, hsame⟩
  rw [unknown_eq, List.mem_filter, isKnown, htext]
  exact ⟨hk', by rw [← isKnown, hknown]; rfl⟩

theorem hashable_merged {k : Value} (h : k ∈ l.merged.keys) : k.unhashable? = none := by
  rcases mem_keys_merged h with hdefault | hconfigured | hgiven
  · obtain ⟨n, -, rfl⟩ := List.mem_map.1 hdefault
    rfl
  · exact l.project_hashable k hconfigured
  · exact l.overrides_hashable k hgiven

/-- The layers are merged and warned of, and then the settings are read. -/
theorem outcome_load (l : Layers) (j : Journal) :
    l.load.outcome j = (do warnUnknown l.unknown; Run.ofExcept (settle l.merged)).outcome
      ((ignoredLines l.project).foldl Journal.log j) := by
  have helements : (Value.dict l.merged).elements = .ok l.merged.keys := rfl
  have hhashable : l.merged.keys.mapM Value.hashable = .ok l.merged.keys :=
    mapM_hashable fun _ => hashable_merged
  rw [load, Settings.load, Run.outcome_bind, outcome_projectLayer]
  dsimp only
  rw [merge_eq, Run.outcome_bind, Run.outcome_ofExcept]
  dsimp only
  rw [ofValue, helements, Run.outcome_bind, Run.outcome_ofExcept]
  dsimp only
  rw [hhashable, Run.outcome_bind, Run.outcome_ofExcept]
  rfl

theorem outcome_load_of_comparable (h : Comparable l.unknown) (j : Journal) :
    l.load.outcome j = (settle l.merged, (ignoredLines l.project ++
      unknownLines (l.unknown.mergeSort inOrder)).foldl Journal.log j) := by
  rw [outcome_load, Run.outcome_bind, outcome_warnUnknown h, List.foldl_append]
  dsimp only
  rw [Run.outcome_ofExcept]

theorem outcome_load_of_not_comparable (h : ¬Comparable l.unknown) :
    ∃ left right, ∀ j, l.load.outcome j =
      (.error (.unordered left right), (ignoredLines l.project).foldl Journal.log j) := by
  obtain ⟨left, right, hwarn⟩ := outcome_warnUnknown_of_not_comparable h
  refine ⟨left, right, fun j => ?_⟩
  rw [outcome_load, Run.outcome_bind, hwarn]

theorem load_eq_ok_iff {j : Journal} {s : Settings} :
    (l.load.outcome j).1 = .ok s ↔ l.Resolves s ∧ Comparable l.unknown := by
  by_cases hcomparable : Comparable l.unknown
  · rw [l.outcome_load_of_comparable hcomparable]
    exact settle_merged_eq_ok_iff.trans (and_iff_left hcomparable).symm
  · obtain ⟨left, right, hfails⟩ := l.outcome_load_of_not_comparable hcomparable
    rw [hfails]
    exact ⟨(nomatch ·), fun h => absurd h.2 hcomparable⟩

theorem load_eq_error_iff (h : Comparable l.unknown) {j : Journal} {f : Failure} :
    (l.load.outcome j).1 = .error f ↔ ∃ v, l.Refuses v ∧ f = .notIterable v.sort := by
  rw [l.outcome_load_of_comparable h]
  exact settle_merged_eq_error_iff

theorem exists_load_iff {j : Journal} :
    (∃ s, (l.load.outcome j).1 = .ok s) ↔ (¬∃ v, l.Refuses v) ∧ Comparable l.unknown := by
  constructor
  · rintro ⟨s, hs⟩
    have hcomparable := (load_eq_ok_iff.1 hs).2
    refine ⟨fun ⟨v, hv⟩ => ?_, hcomparable⟩
    rw [(load_eq_error_iff hcomparable).2 ⟨v, hv, rfl⟩] at hs
    cases hs
  · rintro ⟨hnone, hcomparable⟩
    cases hloaded : (l.load.outcome j).1 with
    | ok s => exact ⟨s, rfl⟩
    | error f =>
      obtain ⟨v, hv, -⟩ := (load_eq_error_iff hcomparable).1 hloaded
      exact absurd ⟨v, hv⟩ hnone

theorem load_congr {l' : Layers} (h : Comparable l.unknown) (h' : Comparable l'.unknown)
    (hsame : ∀ key ∈ keys, l'.given.get? (.str key) = l.given.get? (.str key) ∧
      (l.given.get? (.str key) ≠ none ∨
        l'.configured.get? (.str key) = l.configured.get? (.str key))) (j j' : Journal) :
    (l'.load.outcome j').1 = (l.load.outcome j).1 := by
  rw [l.outcome_load_of_comparable h, l'.outcome_load_of_comparable h']
  refine settle_merged_congr fun key hkey => ?_
  obtain ⟨hgiven, habove | hconfigured⟩ := hsame key hkey
  · obtain ⟨v, hv⟩ := Option.ne_none_iff_exists'.1 habove
    rw [chosen, chosen, hgiven, hv, Option.some_or, Option.some_or]
  · rw [chosen, chosen, hgiven, hconfigured]

/-- A configuration that is no dictionary is as good as none. -/
theorem load_of_project (h : ∀ m, l.project ≠ some (.dict m)) (j j' : Journal) :
    (l.load.outcome j).1 = ((Settings.load none (l.overrides.elim .null .dict)).outcome j').1 := by
  have hentries : projectEntries l.project = projectEntries none := by
    unfold projectEntries
    cases hproject : l.project with
    | none => rfl
    | some v =>
      cases v with
      | dict m => exact absurd hproject (h m)
      | _ => rfl
  rw [load, load_yields, load_yields, loaded, hentries, ← loaded]

theorem log_of_comparable (h : Comparable l.unknown) (j : Journal) :
    (l.load.outcome j).2 = { j with
      lines := j.lines ++
        if j.enabled .warning then
          ignoredLines l.project ++ unknownLines (l.unknown.mergeSort inOrder)
        else [] } := by
  rw [l.outcome_load_of_comparable h]
  refine Journal.foldl_log (fun line hline => ?_) j
  rcases List.mem_append.1 hline with hline | hline
  · exact level_of_mem_ignoredLines line hline
  · exact level_of_mem_unknownLines line hline

theorem Row.comparable {row : List Value} (h : l.Row row) : Comparable l.unknown := by
  have hboth : row.Pairwise fun k k' =>
      (∃ r, k'.before k = .ok r) ∧ ∃ r, k.before k' = .ok r :=
    h.2.imp fun hk => ⟨⟨_, hk.2⟩, _, hk.1⟩
  exact ((h.1.pairwise_iff fun hk => hk.symm).1 hboth).imp And.left

theorem exists_row_of_texts (h : ∀ k ∈ l.unknown, ∃ n, k = .str n) : ∃ row, l.Row row := by
  refine exists_row_of_rank (fun k => k.text?.getD "") (fun a ha b hb => ?_) ?_
  · obtain ⟨m, rfl⟩ := h a ha
    obtain ⟨n, rfl⟩ := h b hb
    exact Value.before_str m n
  · refine l.told_unknown.imp_of_mem fun {a b} ha hb hab => ?_
    obtain ⟨m, rfl⟩ := h a ha
    obtain ⟨n, rfl⟩ := h b hb
    rw [Mapping.sameKey_str, beq_eq_false_iff_ne] at hab
    exact hab.symm

theorem exists_row_of_numbers (h : ∀ k ∈ l.unknown, k.magnitude?.isSome = true) :
    ∃ row, l.Row row := by
  refine exists_row_of_rank Value.place
    (fun a ha b hb => Value.before_of_magnitude? (h a ha) (h b hb)) ?_
  refine l.told_unknown.imp_of_mem fun {a b} ha hb hab hplace => ?_
  have hequal : Mapping.sameKey b a = true := Value.equal_of_place (h b hb) (h a ha) hplace.symm
  rw [hab] at hequal
  cases hequal

theorem exists_row_of_length_le_one (h : l.unknown.length ≤ 1) : ∃ row, l.Row row := by
  refine ⟨l.unknown, List.Perm.refl _, ?_⟩
  match hunknown : l.unknown with
  | [] => exact .nil
  | [k] => exact List.pairwise_singleton _ _
  | _ :: _ :: _ =>
    rw [hunknown] at h
    cases h with | step h => cases h

end Layers

/-- A call resolves each setting to its value in the overrides if the key is there, else in the
configuration if that is a dictionary with the key, else among the defaults; the forced types are
gone through, or none if they count as false. It returns unless the chosen forced types count as
true and cannot be gone through, or two keys that are no settings have no order. Otherwise what is
under such keys changes nothing, nor does a configuration below overrides that have the key, or one
that is no dictionary. The configuration that is ignored is warned of first, and then the keys that
are no settings, in a row if they can be put in one, as texts can and numbers other than NaN. -/
theorem load_resolves_layers (l : Layers) :
    (∀ j s, (l.load.outcome j).1 = .ok s ↔ l.Resolves s ∧ Comparable l.unknown) ∧
    (∀ j, (∃ s, (l.load.outcome j).1 = .ok s) ↔ (¬∃ v, l.Refuses v) ∧ Comparable l.unknown) ∧
    (Comparable l.unknown → ∀ j f,
      (l.load.outcome j).1 = .error f ↔ ∃ v, l.Refuses v ∧ f = .notIterable v.sort) ∧
    (¬Comparable l.unknown → ∃ left right, ∀ j, l.load.outcome j = (.error (.unordered left right),
      { j with lines := j.lines ++ if j.enabled .warning then ignoredLines l.project else [] })) ∧
    (∀ l' : Layers, Comparable l.unknown → Comparable l'.unknown →
      (∀ key ∈ keys, l'.given.get? (.str key) = l.given.get? (.str key) ∧
        (l.given.get? (.str key) ≠ none ∨
          l'.configured.get? (.str key) = l.configured.get? (.str key))) →
      ∀ j j', (l'.load.outcome j').1 = (l.load.outcome j).1) ∧
    ((∀ m, l.project ≠ some (.dict m)) → ∀ j j', (l.load.outcome j).1 =
      ((Settings.load none (l.overrides.elim .null .dict)).outcome j').1) ∧
    (Comparable l.unknown → ∃ told : List Value, told.Perm l.unknown ∧
      (∀ row, l.Row row → told = row) ∧ ∀ j, (l.load.outcome j).2 = { j with
        lines := j.lines ++
          if j.enabled .warning then ignoredLines l.project ++ unknownLines told else [] }) ∧
    (∀ row, l.Row row → Comparable l.unknown) ∧
    ((∀ k ∈ l.unknown, ∃ n, k = .str n) ∨ (∀ k ∈ l.unknown, k.magnitude?.isSome) ∨
      l.unknown.length ≤ 1 → ∃ row, l.Row row) ∧
    Mapping.Told l.unknown ∧
    (∀ k ∈ l.unknown, isKnown k = false ∧ (k ∈ l.configured.keys ∨ k ∈ l.given.keys)) ∧
    (∀ k, k ∈ l.configured.keys ∨ k ∈ l.given.keys → isKnown k = false →
      ∃ k' ∈ l.unknown, k' = k ∨ Mapping.sameKey k k' = true) := by
  refine ⟨fun _ _ => Layers.load_eq_ok_iff, fun _ => Layers.exists_load_iff,
    fun h _ _ => Layers.load_eq_error_iff h, ?_, fun _ h h' hsame => Layers.load_congr h h' hsame,
    Layers.load_of_project, ?_, fun _ => Layers.Row.comparable, ?_, l.told_unknown,
    fun _ => Layers.mem_of_mem_unknown, fun _ => Layers.exists_mem_unknown⟩
  · intro hcomparable
    obtain ⟨left, right, hfails⟩ := l.outcome_load_of_not_comparable hcomparable
    refine ⟨left, right, fun j => ?_⟩
    rw [hfails, Journal.foldl_log level_of_mem_ignoredLines]
  · intro hcomparable
    exact ⟨_, List.mergeSort_perm l.unknown inOrder,
      fun row hrow => mergeSort_eq_of_row hrow.1 hrow.2, Layers.log_of_comparable hcomparable⟩
  · rintro (htexts | hnumbers | hfew)
    · exact l.exists_row_of_texts htexts
    · exact l.exists_row_of_numbers hnumbers
    · exact l.exists_row_of_length_le_one hfew

end Settings

namespace Library

/-- Forced types are given over a configuration whose forced types cannot be gone through. A colour
and an accent are no settings. -/
def painted : Settings.Layers :=
  { project := some (.ofEntries
      [("forced_types", .int 7), ("colour", .str "blue"), ("emit_events", .bool false)])
    overrides := some (Mapping.ofEntries
      [("forced_types", .list [.str "__TypeKind"]), ("accent", .null)])
    project_distinct := Mapping.distinct_ofEntries (by simp [Entries.Distinct])
    project_hashable := fun _ => Mapping.unhashable?_of_mem_keys
    overrides_distinct := Mapping.distinct_ofEntries (by simp [Entries.Distinct])
    overrides_hashable := fun _ => Mapping.unhashable?_of_mem_keys }

theorem painted_chosen (key : String) : painted.chosen key =
    (Entries.get? [("forced_types", .list [.str "__TypeKind"]), ("accent", .null)] key).or
      ((Entries.get? [("forced_types", .int 7), ("colour", .str "blue"),
        ("emit_events", .bool false)] key).or (Settings.defaults.get? key)) := by
  rw [← Mapping.get?_ofEntries, ← Mapping.get?_ofEntries [("forced_types", .int 7), _, _]]
  rfl

theorem painted_unknown : painted.unknown = [.str "colour", .str "accent"] := by
  have hconfigured : painted.configured.keys =
      ["forced_types", "colour", "emit_events"].map .str := Mapping.keys_ofEntries _
  have hgiven : painted.given.keys = ["forced_types", "accent"].map .str :=
    Mapping.keys_ofEntries _
  rw [Settings.Layers.unknown_eq, Settings.Layers.keys_merged, hconfigured, hgiven]
  simp [Mapping.addKey, Mapping.sameKey_str, Settings.isKnown, Settings.keys, Settings.includeKey,
    Settings.forcedKey, Settings.emitKey, Value.text?]

theorem painted_row : painted.Row [.str "accent", .str "colour"] := by
  refine ⟨?_, ?_⟩
  · rw [painted_unknown]
    exact List.Perm.swap _ _ _
  · refine List.pairwise_pair.2 ⟨?_, ?_⟩ <;> rw [Value.before_str] <;> exact congrArg _ (by decide)

def unreadable : Settings.Layers :=
  { project := some (.str "forced_types")
    overrides := some (Mapping.ofEntries [("forced_types", .bool true)])
    project_distinct := .nil
    project_hashable := fun _ h => nomatch h
    overrides_distinct := Mapping.distinct_ofEntries (by simp [Entries.Distinct])
    overrides_hashable := fun _ => Mapping.unhashable?_of_mem_keys }

theorem unreadable_row : unreadable.Row [] := by
  have hgiven : unreadable.given.keys = ["forced_types"].map .str := Mapping.keys_ofEntries _
  have hunknown : unreadable.unknown = [] := by
    rw [Settings.Layers.unknown_eq, Settings.Layers.keys_merged, hgiven]
    simp [unreadable, Settings.Layers.configured, Settings.projectEntries, Mapping.keys,
      Mapping.addKey, Mapping.sameKey_str, Settings.isKnown, Settings.keys, Settings.includeKey,
      Settings.forcedKey, Settings.emitKey, Value.text?]
  refine ⟨?_, .nil⟩
  rw [hunknown]

theorem unreadable_refuses : unreadable.Refuses (.bool true) := by
  have hgiven : unreadable.given.get? (.str Settings.forcedKey) = some (.bool true) :=
    Mapping.get?_ofEntries _ _
  refine ⟨?_, rfl, rfl⟩
  rw [Settings.Layers.chosen, hgiven]
  rfl

def mixed : Settings.Layers :=
  { project := none
    overrides := some [(.int 1, .null), (.str "a", .null)]
    project_distinct := .nil
    project_hashable := fun _ h => nomatch h
    overrides_distinct := by
      simp [Mapping.Distinct, Mapping.keys, Mapping.sameKey, Value.equal, Value.integer?]
    overrides_hashable := by simp [Mapping.keys, Value.unhashable?] }

theorem mixed_unknown : mixed.unknown = [.int 1, .str "a"] := by
  have hconfigured : mixed.configured.keys = [] := rfl
  have hgiven : mixed.given.keys = [.int 1, .str "a"] := rfl
  rw [Settings.Layers.unknown_eq, Settings.Layers.keys_merged, hconfigured, hgiven]
  simp [Mapping.addKey, Mapping.sameKey, Value.equal, Value.integer?, Settings.isKnown,
    Settings.keys, Settings.includeKey, Settings.forcedKey, Settings.emitKey, Value.text?]

theorem mixed_not_comparable : ¬Settings.Comparable mixed.unknown := by
  rw [mixed_unknown]
  intro h
  obtain ⟨_, hr⟩ := List.pairwise_pair.1 h
  cases hr

end Library

/-- Each setting comes from another layer; the forced types of the call are chosen over those of the
project, which would be refused. The names that are no settings are told in order, whichever layer
has them. Where the call's own forced types are refused, the configuration was warned of before. -/
theorem load_resolves_layers_library :
    (Library.painted.load.outcome { threshold := .warning }).1 =
      .ok { includeSpecifiedDirectives := .bool true, forcedTypes := .tuple [.str "__TypeKind"]
            emitEvents := .bool false } ∧
    (Library.painted.load.outcome { threshold := .warning }).2.lines =
      [⟨.settings, .warning,
        .text ("Unknown codegen settings ignored: " ++ Text.quotedList ["accent", "colour"])⟩] ∧
    (Library.unreadable.load.outcome { threshold := .warning }).1 = .error (.notIterable "bool") ∧
    (Library.unreadable.load.outcome { threshold := .warning }).2.lines =
      Settings.ignoredLines (some (.str "forced_types")) ∧
    ∃ left right, (Library.mixed.load.outcome { threshold := .warning }).1 =
      .error (.unordered left right) := by
  obtain ⟨hpainted, -, -, -, -, -, hwarned, hordered, -⟩ :=
    Settings.load_resolves_layers Library.painted
  obtain ⟨-, -, hunreadable, -, -, -, hwarned', hordered', -⟩ :=
    Settings.load_resolves_layers Library.unreadable
  obtain ⟨-, -, -, hmixed, -⟩ := Settings.load_resolves_layers Library.mixed
  have hcomparable := hordered _ Library.painted_row
  have hcomparable' := hordered' _ Library.unreadable_row
  obtain ⟨told, -, hrow, hlines⟩ := hwarned hcomparable
  obtain ⟨told', -, hrow', hlines'⟩ := hwarned' hcomparable'
  refine ⟨?_, ?_, ?_, ?_, ?_⟩
  · exact (hpainted _ _).2 ⟨⟨Library.painted_chosen _, Library.painted_chosen _,
      .list [.str "__TypeKind"], Library.painted_chosen _, .inr ⟨rfl, _, rfl, rfl⟩⟩, hcomparable⟩
  · rw [hlines, hrow _ Library.painted_row]
    rfl
  · exact (hunreadable hcomparable' _ _).2 ⟨_, Library.unreadable_refuses, rfl⟩
  · rw [hlines', hrow' _ Library.unreadable_row]
    rfl
  · obtain ⟨left, right, hfails⟩ := hmixed Library.mixed_not_comparable
    exact ⟨left, right, congrArg Prod.fst (hfails _)⟩

/-- A call fails although nothing is chosen that it would refuse. Where no warnings are logged, the
keys that are no settings are not told of. -/
theorem load_fails_on_mixed_keys :
    (¬∃ v, Library.mixed.Refuses v) ∧
    (∃ left right, ∀ j, (Library.mixed.load.outcome j).1 = .error (.unordered left right)) ∧
    Library.painted.unknown = [.str "colour", .str "accent"] ∧
    (Library.painted.load.outcome { threshold := .critical }).2.lines = [] := by
  refine ⟨?_, ?_, Library.painted_unknown, ?_⟩
  · rintro ⟨v, hv, htruthy, -⟩
    have hgiven : Library.mixed.given.get? (.str Settings.forcedKey) = none := by
      simp [Library.mixed, Settings.Layers.given, Mapping.get?, Mapping.sameKey, Value.equal,
        Settings.forcedKey]
    have hchosen : Library.mixed.chosen Settings.forcedKey = some (.list []) := by
      rw [Settings.Layers.chosen, hgiven]
      rfl
    rw [hchosen] at hv
    obtain rfl := Option.some.inj hv
    cases htruthy
  · obtain ⟨left, right, hfails⟩ :=
      Library.mixed.outcome_load_of_not_comparable Library.mixed_not_comparable
    exact ⟨left, right, fun j => congrArg Prod.fst (hfails j)⟩
  · have hcomparable := Library.painted_row.comparable
    rw [Library.painted.outcome_load_of_comparable hcomparable,
      Settings.mergeSort_eq_of_row Library.painted_row.1 Library.painted_row.2]
    rfl

end SchemaContext
