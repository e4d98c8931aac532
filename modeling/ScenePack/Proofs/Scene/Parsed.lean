/-
**What can be wrong with a scene that has been read.**

Reading the text of a scene numbers its instances twice: once to know which instance an id belongs
to, and once more when the records are made.  Both count alike, so references lead to records of the
scene, also those to instances that come later and those in embedded records.  And a value that is
read suits its field.  So what the check of the scene may still find is a text with a zero byte, or
a reference to a record of another type.

Main definitions:

* `Value.keys` — the keys of the references in a value.

Main results:

* `Scene.keys_lt_of_read` — **references that are read lead into the scene**;
* `Scene.read_packs` — **how packing may fail for a scene that has been read**.
-/

import ScenePack.Proofs.Image.Total
import ScenePack.Proofs.Scene.Producers
import ScenePack.Proofs.Scene.Violations

set_option relaxedAutoImplicit false
set_option autoImplicit false

namespace ScenePack

variable {registry : Registry}

/-! ### The keys in a value -/

namespace Value

mutual

/-- The keys of the references in a value, those in embedded records included. -/
def keys : Value → List InstanceKey
  | ref (some key) => [key]
  | component _ values => allKeys values
  | _ => []

/-- The keys of the references in a list of values, value by value. -/
def allKeys : List Value → List InstanceKey
  | [] => []
  | value :: values => keys value ++ allKeys values

end

theorem mem_allKeys_iff {values : List Value} {key : InstanceKey} :
    key ∈ allKeys values ↔ ∃ value ∈ values, key ∈ value.keys := by
  induction values with
  | nil => simp [allKeys]
  | cons value values ih => simp [allKeys, ih]

theorem allKeys_eq_nil {values : List Value} (h : ∀ value ∈ values, value.keys = []) :
    allKeys values = [] := by
  refine List.eq_nil_iff_forall_not_mem.2 fun key hkey => ?_
  obtain ⟨value, hvalue, hkey⟩ := mem_allKeys_iff.1 hkey
  rw [h value hvalue] at hkey
  exact List.not_mem_nil hkey

theorem keys_zeroValue (registry : Registry) (nesting : Nat) (kind : FieldKind Target) :
    (registry.zeroValue nesting kind).keys = [] := by
  induction nesting generalizing kind with
  | zero => cases kind <;> rfl
  | succ nesting ih =>
      cases kind with
      | scalar type => rfl
      | text => rfl
      | ref target => rfl
      | component target =>
          rw [Registry.zeroValue]
          split
          · rfl
          · exact allKeys_eq_nil (List.forall_mem_map.2 fun field _ => ih field.kind)

end Value

theorem keys_zeroRecord (registry : Registry) (layout : RecordLayout) :
    Value.allKeys (registry.zeroRecord layout).values = [] :=
  Value.allKeys_eq_nil (List.forall_mem_map.2 fun field _ =>
    Value.keys_zeroValue registry layout.depth field.kind)

namespace Value

mutual

/-- The references that the check looks at are among the keys. -/
theorem mem_keys_of_mem_sites {owner other : RecordLayout} {field placed : FieldLayout}
    {key : InstanceKey} (value : Value)
    (h : Site.field other placed (.ref (some key)) ∈ value.sites registry owner field) :
    key ∈ value.keys := by
  rw [sites.eq_def] at h
  cases value with
  | scalar number => simp at h
  | text content => simp at h
  | ref found =>
      obtain ⟨-, -, rfl⟩ : other = owner ∧ placed = field ∧ some key = found := by simpa using h
      exact List.mem_singleton_self key
  | component typeId values =>
      simp only [List.mem_cons, Site.field.injEq, reduceCtorEq, and_false, false_or] at h
      split at h
      · exact absurd h List.not_mem_nil
      · exact mem_allKeys_of_mem_allSites values h

theorem mem_allKeys_of_mem_allSites {owner other : RecordLayout} {fields : List FieldLayout}
    {placed : FieldLayout} {key : InstanceKey} (values : List Value)
    (h : Site.field other placed (.ref (some key)) ∈ allSites registry owner fields values) :
    key ∈ allKeys values := by
  rw [allSites.eq_def] at h
  cases values with
  | nil => exact absurd h List.not_mem_nil
  | cons value values =>
      cases fields with
      | nil => exact absurd h List.not_mem_nil
      | cons field fields =>
          rw [allKeys, List.mem_append]
          exact (List.mem_append.1 h).imp (mem_keys_of_mem_sites value)
            (mem_allKeys_of_mem_allSites values)

end

end Value

/-! ### The places of well-formed values -/

/-- A record is of a known type, and a value suits its field by its kind. -/
def Site.Suited (registry : Registry) : Site → Prop
  | .record typeId => ∃ layout, registry.layout? typeId = some layout
  | .field _ placed value => placed.kind.accepts value = true

namespace Value

mutual

theorem Formed.suited {owner : RecordLayout} {field : FieldLayout} (value : Value)
    (h : value.Formed registry field.kind) :
    ∀ site ∈ value.sites registry owner field, site.Suited registry := by
  rw [Formed.eq_def] at h
  rw [sites.eq_def]
  cases value with
  | scalar number => exact List.forall_mem_singleton.2 h.1
  | text content => exact List.forall_mem_singleton.2 h.1
  | ref key => exact List.forall_mem_singleton.2 h.1
  | component typeId values =>
      obtain ⟨haccepts, layout, hlayout, hvalues⟩ := h
      refine List.forall_mem_cons.2 ⟨haccepts, List.forall_mem_cons.2 ⟨⟨layout, hlayout⟩, ?_⟩⟩
      rw [hlayout]
      exact AllFormed.suited values hvalues

theorem AllFormed.suited {owner : RecordLayout} {fields : List FieldLayout} (values : List Value)
    (h : AllFormed registry fields values) :
    ∀ site ∈ allSites registry owner fields values, site.Suited registry := by
  rw [AllFormed.eq_def] at h
  rw [allSites.eq_def]
  cases values with
  | nil => exact fun _ h => absurd h List.not_mem_nil
  | cons value values =>
      cases fields with
      | nil => exact fun _ h => absurd h List.not_mem_nil
      | cons field fields =>
          exact List.forall_mem_append.2 ⟨Formed.suited value h.1, AllFormed.suited values h.2⟩

end

end Value

namespace Scene

variable {scene : Scene}

/-- A place of a record holds a reference of the record. -/
theorem mem_allKeys_of_mem_record {record : Record} {owner : RecordLayout} {placed : FieldLayout}
    {key : InstanceKey}
    (h : Site.field owner placed (.ref (some key)) ∈ record.sites registry) :
    key ∈ Value.allKeys record.values := by
  rw [Record.sites, List.mem_cons] at h
  rcases h with h | h
  · cases h
  · split at h
    · exact absurd h List.not_mem_nil
    · exact Value.mem_allKeys_of_mem_allSites record.values h

theorem suited_of_formed {record : Record} (h : record.Formed registry) :
    ∀ site ∈ record.sites registry, site.Suited registry := by
  obtain ⟨layout, hlayout, hvalues⟩ := h
  rw [Record.sites, hlayout]
  exact List.forall_mem_cons.2 ⟨⟨layout, hlayout⟩, Value.AllFormed.suited record.values hvalues⟩

/-- **What the check may find in a well-formed scene** whose references lead into it. -/
theorem cases_of_check (hformed : scene.Formed registry)
    (hkeys : ∀ record ∈ scene, ∀ key ∈ Value.allKeys record.values, key < scene.length)
    {error : SceneError} (h : scene.check registry = .error error) :
    (∃ owner field key expected found,
        error = .referenceMismatch owner field key expected found) ∨
      ∃ owner field, error = .interiorNul owner field := by
  obtain ⟨front, site, back, hsites, -, hviolates⟩ := check_eq_error_iff.1 h
  have hsite : site ∈ scene.sites registry := hsites ▸ by simp
  obtain ⟨record, hrecord, hsite⟩ := List.mem_flatMap.1 hsite
  have hsuited := suited_of_formed (hformed record hrecord) site hsite
  cases hviolates with
  | unknownType hunknown =>
      obtain ⟨layout, hlayout⟩ := hsuited
      cases hunknown.symm.trans hlayout
  | valueMismatch hrefused => cases hrefused.symm.trans hsuited
  | interiorNul hkind hzero => exact .inr ⟨_, _, rfl⟩
  | danglingReference hkind hnone =>
      have hlt := hkeys record hrecord _ (mem_allKeys_of_mem_record hsite)
      exact absurd hlt (Nat.not_lt.2 (List.getElem?_eq_none_iff.1 hnone))
  | referenceMismatch hkind hother hne => exact .inl ⟨_, _, _, _, _, rfl⟩

/-! ### The keys that are read -/

section Keys

variable {ids : InstanceIds} {count : Nat}

mutual

/-- A value that is read refers to instances that have ids. -/
theorem keys_lt_of_convertValue (hids : ∀ {id key}, ids.lookup id = some key → key < count)
    {owner : RecordLayout} {field : FieldLayout} (json : Json) {value : Value}
    (h : convertValue registry ids owner field json = .ok value) :
    ∀ key ∈ value.keys, key < count := by
  obtain ⟨number, -, rfl⟩ | ⟨content, -, rfl⟩ |
    ⟨found, target, layout, values, hjson, -, -, hvalues, rfl⟩ |
    ⟨target, found, -, rfl, hfound⟩ := cases_of_convertValue h
  · exact fun _ h => absurd h List.not_mem_nil
  · exact fun _ h => absurd h List.not_mem_nil
  · have hzero : ∀ key ∈ Value.allKeys (registry.zeroRecord layout).values, key < count := by
      rw [keys_zeroRecord]
      exact fun _ h => absurd h List.not_mem_nil
    cases json with
    | object members =>
        rw [← Json.object.inj hjson] at hvalues
        exact keys_lt_of_convertFields hids members hzero hvalues
    | _ => cases hjson
  · cases found with
    | none => exact fun _ h => absurd h List.not_mem_nil
    | some key =>
        obtain ⟨id, hid⟩ := hfound key rfl
        exact List.forall_mem_singleton.2 (hids hid)

/-- Values refer to instances that have ids if the fields of a text are read into them. -/
theorem keys_lt_of_convertFields (hids : ∀ {id key}, ids.lookup id = some key → key < count)
    {layout : RecordLayout} (fields : List (String × Json)) {values changed : List Value}
    (hvalues : ∀ key ∈ Value.allKeys values, key < count)
    (h : convertFields registry ids layout values fields = .ok changed) :
    ∀ key ∈ Value.allKeys changed, key < count := by
  cases fields with
  | nil =>
      rw [convertFields] at h
      cases h
      exact hvalues
  | cons entry rest =>
      obtain ⟨name, json⟩ := entry
      rw [convertFields] at h
      split at h
      · cases h
      next field index hfind =>
      obtain ⟨value, hvalue, hrest⟩ := bind_eq_ok_iff.1 h
      refine keys_lt_of_convertFields hids rest (fun key hkey => ?_) hrest
      obtain ⟨other, hother, hmem⟩ := Value.mem_allKeys_iff.1 hkey
      rcases List.mem_or_eq_of_mem_set hother with hother | rfl
      · exact hvalues key (Value.mem_allKeys_iff.2 ⟨other, hother, hmem⟩)
      · exact keys_lt_of_convertValue hids json hvalue key hmem

end

end Keys

theorem lt_of_lookup_idsOf {sources : List InstanceSource} {id : String} {key : InstanceKey}
    (h : (idsOf sources).lookup id = some key) : key < sources.length := by
  obtain ⟨⟨source, position⟩, hsource, hkey⟩ := List.mem_filterMap.1 (mem_of_lookup_eq_some h)
  obtain ⟨_, -, hpair⟩ := Option.map_eq_some_iff.1 hkey
  cases hpair
  exact (List.getElem?_eq_some_iff.1 (List.mem_zipIdx_iff_getElem?.1 hsource)).1

/-- **References that are read lead into the scene**, at any depth of embedding. -/
theorem keys_lt_of_read {text : String} (h : Scene.read registry text = .ok scene) :
    ∀ record ∈ scene, ∀ key ∈ Value.allKeys record.values, key < scene.length := by
  unfold Scene.read at h
  split at h
  · cases h
  next sources _ =>
  unfold ofSource at h
  split at h
  · cases h
  -- every instance of the source has become a record
  have hconverted := mapM_eq_ok_iff.1 h
  rw [← hconverted.length_eq]
  intro record hrecord
  obtain ⟨source, -, hconvert⟩ := exists_mem_of_forall₂ hconverted hrecord
  unfold convertInstance at hconvert
  split at hconvert
  · cases hconvert
  next layout _ =>
  obtain ⟨values, hvalues, rfl⟩ := map_eq_ok_iff.1 hconvert
  refine keys_lt_of_convertFields lt_of_lookup_idsOf source.fields ?_ hvalues
  rw [keys_zeroRecord]
  exact fun _ h => absurd h List.not_mem_nil

/-- **A scene that has been read fails to be packed in two ways only.**  Its references lead to
records of the scene.  It can be measured and packed, or both fail alike: a reference leads to a
record of another type than its field names, or a text holds a zero byte. -/
theorem read_packs {schema : Schema} {layoutConfig : LayoutConfig} {registry : Registry}
    (hbuild : Registry.build schema layoutConfig = .ok registry) {text : String} {scene : Scene}
    (h : Scene.read registry text = .ok scene) :
    (∀ record ∈ scene, ∀ key ∈ Value.allKeys record.values, key < scene.length) ∧
      ∀ config : PackConfig,
        (∃ sizes bytes, scene.measure registry config = .ok sizes ∧
          scene.pack registry config = .ok bytes) ∨
        ∃ error, scene.measure registry config = .error error ∧
          scene.pack registry config = .error error ∧
          ((∃ owner field key expected found,
              error = .referenceMismatch owner field key expected found) ∨
            ∃ owner field, error = .interiorNul owner field) := by
  have hgrounded := Registry.grounded_of_build hbuild
  have hkeys := keys_lt_of_read h
  refine ⟨hkeys, fun config => ?_⟩
  cases hcheck : scene.check registry with
  | ok =>
      obtain ⟨sizes, hsizes⟩ := exists_measure_iff.2 hcheck
      obtain ⟨bytes, hbytes⟩ := (exists_pack_iff hgrounded config).2 hcheck
      exact .inl ⟨sizes, bytes, hsizes, hbytes⟩
  | error error =>
      exact .inr ⟨error, measure_eq_error_iff.2 hcheck, (pack_eq_error_iff hgrounded).2 hcheck,
        cases_of_check (formed_of_read hgrounded h) hkeys hcheck⟩

end Scene

namespace Sample

/-- A node whose tag holds a text, and which refers to an instance that comes later: a tag. -/
def source : String :=
  "\x7b\"instances\":[\x7b\"type\":\"Node\",\"fields\":\x7b\"tag\":\x7b\"label\":\"a\"\x7d," ++
    "\"next\":\x7b\"ref\":\"t\"\x7d\x7d\x7d,\x7b\"id\":\"t\",\"type\":\"Tag\"\x7d]\x7d"

/-- The scene of that text. -/
def misdirected : Scene :=
  [⟨0, [.scalar (.zero .u16), .component 1 [.text (some "a")], .ref (some 1)]⟩, ⟨1, [.text none]⟩]

theorem read_source : Scene.read Sample.registry source = .ok misdirected := by cbv

end Sample
/-- The text of the sample is read, and the reference leads into the scene; it cannot be packed
because the reference leads to a record of another type. -/
theorem Scene.read_packs_sample :
    Scene.read Sample.registry Sample.source = .ok Sample.misdirected ∧
      (∀ record ∈ Sample.misdirected, ∀ key ∈ Value.allKeys record.values, key < 2) ∧
      Sample.misdirected.pack Sample.registry ⟨true⟩ =
        .error (.referenceMismatch "Node" "next" 1 "Node" "Tag") := by
  obtain ⟨hkeys, hpack⟩ := read_packs Sample.build_schema Sample.read_source
  refine ⟨Sample.read_source, hkeys, ?_⟩
  have hmeasure : Sample.misdirected.measure Sample.registry ⟨true⟩ =
      .error (.referenceMismatch "Node" "next" 1 "Node" "Tag") := by cbv
  obtain ⟨sizes, -, hsizes, -⟩ | ⟨error, herror, hfailed, -⟩ := hpack ⟨true⟩
  · cases hmeasure.symm.trans hsizes
  · obtain rfl := Except.error.inj (herror.symm.trans hmeasure)
    exact hfailed

end ScenePack
