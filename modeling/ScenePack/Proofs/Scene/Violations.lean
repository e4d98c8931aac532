/-
**What the check of a scene finds.**

The records of a scene are gone through in order, the values of a record in the order of the fields
of its type, and the values of an embedded record right after the field that holds it.  At each
place there is at most one thing wrong: a record may be of an unknown type, and a value may not suit
its field, hold a text with a zero byte, or refer to no record or to one of another type.  The check
of a scene finds the first violation on this way, and it passes exactly if there is none.

Main definitions:

* `Site` — a place that the check looks at;
* `Scene.sites` — the places of a scene in order;
* `Site.Admitted`, `Site.Violates` — nothing is wrong at a place, and what is wrong there;
* `Scene.FirstViolation` — the first violation in a scene.

Main results:

* `Scene.check_eq_forM_sites` — the check looks at one place after the other;
* `Scene.check_eq_ok_iff` — **the check passes exactly if every place is admitted**;
* `Scene.check_eq_error_iff` — **the check fails with the first violation**.
-/

import ScenePack.Proofs.Scene.Formed

set_option relaxedAutoImplicit false
set_option autoImplicit false

namespace ScenePack

theorem FieldKind.eq_text_of_accepts {kind : FieldKind Target} {content : Option String}
    (h : kind.accepts (.text content) = true) : kind = .text := by
  cases kind with
  | text => rfl
  | scalar type => cases h
  | component target => cases h
  | ref target => cases h

/-! ### Places in a scene -/

/-- A place that the check of a scene looks at: a record with its type, or the value of a field of a
record of the type `owner`. -/
inductive Site where
  | record (typeId : TypeId)
  | field (owner : RecordLayout) (field : FieldLayout) (value : Value)

namespace Value

mutual

/-- The places in the value of a field: the field itself, and those in an embedded record. -/
def sites (registry : Registry) (owner : RecordLayout) (field : FieldLayout) (value : Value) :
    List Site :=
  .field owner field value ::
    match value with
    | .component typeId values =>
        .record typeId ::
          match registry.layout? typeId with
          | none => []
          | some layout => allSites registry layout layout.fields values
    | _ => []

/-- The places in the values of the fields of a record, as far as there are both. -/
def allSites (registry : Registry) (owner : RecordLayout) (fields : List FieldLayout)
    (values : List Value) : List Site :=
  match values, fields with
  | value :: values, field :: fields =>
      sites registry owner field value ++ allSites registry owner fields values
  | _, _ => []

end

end Value

/-- The places in a record: the record itself, and those in its values if its type is known. -/
def Record.sites (registry : Registry) (record : Record) : List Site :=
  .record record.typeId ::
    match registry.layout? record.typeId with
    | none => []
    | some layout => Value.allSites registry layout layout.fields record.values

/-- The places in a scene, record by record. -/
def Scene.sites (registry : Registry) (scene : Scene) : List Site :=
  scene.flatMap (Record.sites registry)

/-! ### Violations -/

namespace Site

/-- Nothing is wrong at a place: the type of a record is known; a value is accepted by its field,
its text holds no zero byte, and its reference leads to a record of the scene that has the type
which the field names. -/
def Admitted (registry : Registry) (scene : Scene) : Site → Prop
  | record typeId => ∃ layout, registry.layout? typeId = some layout
  | field _ placed value => placed.kind.accepts value = true ∧
      (∀ text, value = .text (some text) → 0 ∉ Utf8.encode text) ∧
      ∀ key target, value = .ref (some key) → placed.kind = .ref target →
        ∃ record, scene[key]? = some record ∧ record.typeId = target.id

/-- What is wrong at a place, and how it is reported.  The report of a value names the field that
holds it, and the type of the record with this field. -/
inductive Violates (registry : Registry) (scene : Scene) : Site → SceneError → Prop
  | unknownType {typeId : TypeId} (h : registry.layout? typeId = none) :
      Violates registry scene (record typeId) (.unknownType (registry.describe typeId))
  | valueMismatch {owner : RecordLayout} {placed : FieldLayout} {value : Value}
      (h : placed.kind.accepts value = false) :
      Violates registry scene (field owner placed value)
        (.valueMismatch owner.name placed.name placed.describe value.kindName)
  | interiorNul {owner : RecordLayout} {placed : FieldLayout} {text : String}
      (hkind : placed.kind = .text) (h : 0 ∈ Utf8.encode text) :
      Violates registry scene (field owner placed (.text (some text)))
        (.interiorNul owner.name placed.name)
  | danglingReference {owner : RecordLayout} {placed : FieldLayout} {target : Target}
      {key : InstanceKey} (hkind : placed.kind = .ref target) (h : scene[key]? = none) :
      Violates registry scene (field owner placed (.ref (some key)))
        (.danglingReference owner.name placed.name key)
  | referenceMismatch {owner : RecordLayout} {placed : FieldLayout} {target : Target}
      {key : InstanceKey} {other : Record} (hkind : placed.kind = .ref target)
      (hother : scene[key]? = some other) (h : other.typeId ≠ target.id) :
      Violates registry scene (field owner placed (.ref (some key)))
        (.referenceMismatch owner.name placed.name key target.name
          (registry.describe other.typeId))

/-- The check of a single place. -/
def check (registry : Registry) (scene : Scene) : Site → Except SceneError Unit
  | record typeId =>
      match registry.layout? typeId with
      | none => .error (.unknownType (registry.describe typeId))
      | some _ => .ok ()
  | field owner placed value =>
      match value, placed.kind with
      | .text (some text), .text =>
          if text.contains '\x00' then .error (.interiorNul owner.name placed.name) else .ok ()
      | .ref (some key), .ref target => Scene.checkRef registry scene owner placed target key
      | value, kind =>
          if kind.accepts value then .ok ()
          else .error (.valueMismatch owner.name placed.name placed.describe value.kindName)

/-- A place is reported exactly for what is wrong there. -/
theorem check_eq_error_iff {registry : Registry} {scene : Scene} {site : Site}
    {error : SceneError} :
    site.check registry scene = .error error ↔ site.Violates registry scene error := by
  constructor
  · intro h
    cases site with
    | record typeId =>
        rw [check] at h
        split at h
        · next hunknown =>
            cases h
            exact .unknownType hunknown
        · cases h
    | field owner placed value =>
        simp only [check] at h
        split at h
        · next text hkind =>
            split at h
            · next hzero =>
                cases h
                exact .interiorNul hkind (Utf8.contains_zero_iff.1 hzero)
            · cases h
        · next key target hkind =>
            rw [Scene.checkRef] at h
            split at h
            · next hnone =>
                cases h
                exact .danglingReference hkind hnone
            · next other hother =>
                split at h
                · cases h
                · next hne =>
                    cases h
                    exact .referenceMismatch hkind hother hne
        · next value kind _ _ =>
            split at h
            · cases h
            · next hrefused =>
                cases h
                exact .valueMismatch (by simpa using hrefused)
  · intro h
    cases h with
    | unknownType h => rw [check, h]
    | @valueMismatch owner placed value h =>
        simp only [check]
        split
        · next text hkind => rw [hkind] at h; cases h
        · next key target hkind => rw [hkind] at h; cases h
        · rw [h]; rfl
    | interiorNul hkind h =>
        simp only [check, hkind]
        rw [if_pos (Utf8.contains_zero_iff.2 h)]
    | danglingReference hkind h => simp only [check, hkind, Scene.checkRef, h]
    | referenceMismatch hkind hother h =>
        simp only [check, hkind, Scene.checkRef, hother, if_neg h]

/-- A place passes exactly if nothing is wrong there. -/
theorem check_eq_ok_iff {registry : Registry} {scene : Scene} {site : Site} :
    site.check registry scene = .ok () ↔ site.Admitted registry scene := by
  cases site with
  | record typeId =>
      rw [check, Admitted]
      cases registry.layout? typeId <;> simp
  | field owner placed value =>
      simp only [check, Admitted]
      split
      · next text hkind =>
          rw [hkind]
          simp [FieldKind.accepts, ← Utf8.contains_zero_iff]
      · next key target hkind =>
          rw [Scene.checkRef_eq_ok_iff, hkind]
          simp [FieldKind.accepts]
      · next htext href =>
          split
          · next haccepts =>
              refine iff_of_true rfl ⟨haccepts, fun text hvalue => ?_,
                fun key target hvalue hkind => absurd hkind (href key target hvalue)⟩
              rw [hvalue] at haccepts
              exact (htext text hvalue (FieldKind.eq_text_of_accepts haccepts)).elim
          · next hrefused => simp [hrefused]

end Site

/-- The first violation in a scene, by its report: nothing is wrong at the places before it. -/
def Scene.FirstViolation (registry : Registry) (scene : Scene) (error : SceneError) : Prop :=
  ∃ front site back, scene.sites registry = front ++ site :: back ∧
    (∀ other ∈ front, other.Admitted registry scene) ∧ site.Violates registry scene error

namespace Scene

variable {registry : Registry} {scene : Scene}

/-! ### The check, place by place -/

/-- The check of one place and then of others. -/
theorem forM_cons_sites {site : Site} {rest : List Site} :
    (site :: rest).forM (Site.check registry scene) =
      site.check registry scene >>= fun _ => rest.forM (Site.check registry scene) :=
  List.forM_cons

mutual

/-- The check of a value looks at the places in it one after the other. -/
theorem checkValue_eq_forM_sites {owner : RecordLayout} {field : FieldLayout} (value : Value) :
    checkValue registry scene owner field value =
      (value.sites registry owner field).forM (Site.check registry scene) := by
  rw [checkValue.eq_def, Value.sites.eq_def, forM_cons_sites]
  cases value with
  | scalar number => cases hkind : field.kind <;> simp [Site.check, hkind]
  | text content => cases content <;> cases hkind : field.kind <;> simp [Site.check, hkind]
  | component typeId values =>
      cases hkind : field.kind with
      | component target =>
          by_cases htype : typeId = target.id
          · have hfield :
                Site.check registry scene (.field owner field (.component typeId values)) =
                  .ok () := by simp [Site.check, hkind, FieldKind.accepts, htype]
            dsimp only
            rw [if_pos htype, hfield, forM_cons_sites, Site.check]
            cases registry.layout? typeId with
            | none => rfl
            | some layout => exact checkValues_eq_forM_sites values
          · simp only [Site.check, hkind, FieldKind.accepts, htype]
            rfl
      | scalar type => simp only [Site.check, hkind]; rfl
      | text => simp only [Site.check, hkind]; rfl
      | ref target => simp only [Site.check, hkind]; rfl
  | ref key => cases key <;> cases hkind : field.kind <;> simp [Site.check, hkind]

theorem checkValues_eq_forM_sites {owner : RecordLayout} {fields : List FieldLayout}
    (values : List Value) :
    checkValues registry scene owner fields values =
      (Value.allSites registry owner fields values).forM (Site.check registry scene) := by
  cases values with
  | nil => rw [checkValues.eq_def, Value.allSites.eq_def]; rfl
  | cons value values =>
      cases fields with
      | nil => rw [checkValues.eq_def, Value.allSites.eq_def]; rfl
      | cons field fields =>
          rw [checkValues, Value.allSites, List.forM_eq_forM, List.forM_append,
            checkValue_eq_forM_sites value, checkValues_eq_forM_sites values]
          rfl

end

/-- **The check of a scene looks at one place after the other.** -/
theorem check_eq_forM_sites :
    scene.check registry = (scene.sites registry).forM (Site.check registry scene) := by
  have hrecord : ∀ record : Record, checkRecord registry scene record =
      (record.sites registry).forM (Site.check registry scene) := by
    intro record
    rw [checkRecord, Record.sites, forM_cons_sites, Site.check]
    cases registry.layout? record.typeId with
    | none => rfl
    | some layout => exact checkValues_eq_forM_sites record.values
  rw [check, sites]
  -- references lead anywhere in the scene, so the records to check vary and the scene does not
  suffices hall : ∀ records : Scene, records.forM (checkRecord registry scene) =
      (records.flatMap (Record.sites registry)).forM (Site.check registry scene) from hall scene
  intro records
  induction records with
  | nil => rfl
  | cons record rest ih =>
      rw [List.flatMap_cons, List.forM_eq_forM, List.forM_eq_forM, List.forM_append, List.forM_cons]
      rw [List.forM_eq_forM, List.forM_eq_forM] at ih
      rw [ih, hrecord, List.forM_eq_forM]

/-- **The check passes exactly if nothing is wrong anywhere.** -/
theorem check_eq_ok_iff :
    scene.check registry = .ok () ↔
      ∀ site ∈ scene.sites registry, site.Admitted registry scene := by
  rw [check_eq_forM_sites, forM_eq_ok_iff]
  exact forall₂_congr fun site _ => Site.check_eq_ok_iff

/-- **The check fails with the first violation.** -/
theorem check_eq_error_iff {error : SceneError} :
    scene.check registry = .error error ↔ scene.FirstViolation registry error := by
  rw [check_eq_forM_sites, forM_eq_error_iff, FirstViolation]
  simp only [Site.check_eq_ok_iff, Site.check_eq_error_iff]

end Scene

end ScenePack
