/-
**Names in a schema.**

The check of names passes exactly if type names are distinct, the field names of every type are, and
every target is defined.  A failure names something that is wrong: a name that occurs twice, or a
target that is nowhere defined.

Main definitions:

* `Schema.WellNamed` — a schema without a fault in its names;
* `SchemaError.Shows` — what an error of the check points at.

Main results:

* `Schema.validate_eq_ok_iff` — **the check passes exactly on well-named schemas**;
* `Schema.shows_of_validate` — **a failed check points at a fault**.
-/

import Mathlib.Data.List.Nodup
import ScenePack.Proofs.Outcome
import ScenePack.Schema.Basic

set_option relaxedAutoImplicit false
set_option autoImplicit false

namespace ScenePack

namespace Schema

/-- Type names are distinct, the field names of each type are, and every target is defined. -/
structure WellNamed (schema : Schema) : Prop where
  types : schema.names.Nodup
  fields : ∀ type ∈ schema, (type.fields.map Field.name).Nodup
  targets : ∀ type ∈ schema, ∀ field ∈ type.fields, ∀ target,
    field.kind.target? = some target → target ∈ schema.names

end Schema

/-- What an error of the check of names points at in a schema. -/
def SchemaError.Shows (schema : Schema) : SchemaError → Prop
  | .duplicateType name => 1 < schema.names.count name
  | .duplicateField owner field => ∃ type ∈ schema, type.name = owner ∧
      1 < (type.fields.map Field.name).count field
  | .undefinedType owner field target => ∃ type ∈ schema, type.name = owner ∧
      ∃ declared ∈ type.fields, declared.name = field ∧
        declared.kind.target? = some target ∧ target ∉ schema.names
  | _ => False

/-! ### Repeated names -/

/-- No name is repeated if all are distinct, also from those seen before. -/
theorem firstRepeat?_eq_none_iff {seen names : List String} :
    firstRepeat? seen names = none ↔ names.Nodup ∧ ∀ name ∈ names, name ∉ seen := by
  induction names generalizing seen with
  | nil => simp [firstRepeat?]
  | cons name rest ih =>
      rw [firstRepeat?, List.nodup_cons, List.forall_mem_cons]
      by_cases hseen : name ∈ seen
      · simp [hseen]
      · rw [if_neg (by simpa using hseen), ih]
        constructor
        · rintro ⟨hnodup, hfresh⟩
          refine ⟨⟨fun hmem => hfresh name hmem List.mem_cons_self, hnodup⟩, hseen, ?_⟩
          exact fun other hother hmem => hfresh other hother (List.mem_cons_of_mem _ hmem)
        · rintro ⟨⟨hname, hnodup⟩, -, hfresh⟩
          refine ⟨hnodup, fun other hother hmem => ?_⟩
          rcases List.mem_cons.1 hmem with rfl | hmem
          · exact hname hother
          · exact hfresh other hother hmem

/-- A repeated name occurs twice, names seen before being counted too. -/
theorem count_of_firstRepeat? {seen names : List String} {name : String}
    (h : firstRepeat? seen names = some name) : 1 < (seen ++ names).count name := by
  induction names generalizing seen with
  | nil => cases h
  | cons head rest ih =>
      rw [firstRepeat?] at h
      split at h
      · next hseen =>
          cases h
          have hpositive := List.count_pos_iff.2 (List.contains_iff_mem.1 hseen)
          rw [List.count_append, List.count_cons_self]
          omega
      · have hcount := ih h
        rwa [List.cons_append, ← List.perm_middle.count_eq] at hcount

namespace Schema

/-! ### The check of names -/

/-- The check of type and field names, next to names seen before. -/
theorem checkNames_eq_ok_iff {seen : List String} {schema : Schema} :
    checkNames seen schema = .ok () ↔
      (schema.names.Nodup ∧ ∀ name ∈ schema.names, name ∉ seen) ∧
        ∀ type ∈ schema, (type.fields.map Field.name).Nodup := by
  rw [← firstRepeat?_eq_none_iff]
  induction schema generalizing seen with
  | nil => simp [checkNames, firstRepeat?, names]
  | cons type rest ih =>
      have hnames : names (type :: rest) = type.name :: names rest := rfl
      rw [checkNames, List.forall_mem_cons, hnames, firstRepeat?]
      by_cases hseen : seen.contains type.name = true
      · rw [if_pos hseen, if_pos hseen]
        simp
      · rw [if_neg hseen, if_neg hseen]
        have hfields := @firstRepeat?_eq_none_iff [] (type.fields.map Field.name)
        cases hrepeat : firstRepeat? [] (type.fields.map Field.name) with
        | some field =>
            rw [hrepeat] at hfields
            have hrepeated : ¬(type.fields.map Field.name).Nodup := by simpa using hfields
            simp [hrepeated]
        | none =>
            rw [hrepeat] at hfields
            have hdistinct : (type.fields.map Field.name).Nodup := by simpa using hfields
            simp [hdistinct, ih]

/-- A failed check of type and field names points at a name that occurs twice. -/
theorem shows_of_checkNames {seen : List String} {schema rest : Schema} {error : SchemaError}
    (hrest : rest ⊆ schema) (hcount : ∀ name, (seen ++ rest.names).count name ≤
      schema.names.count name) (h : checkNames seen rest = .error error) : error.Shows schema := by
  induction rest generalizing seen with
  | nil => cases h
  | cons type rest ih =>
      obtain ⟨htype, hrest⟩ := List.cons_subset.1 hrest
      have hnames : names (type :: rest) = type.name :: names rest := rfl
      rw [hnames] at hcount
      rw [checkNames] at h
      split at h
      · next hseen =>
          cases h
          have hpositive := List.count_pos_iff.2 (List.contains_iff_mem.1 hseen)
          have := hcount type.name
          rw [List.count_append, List.count_cons_self] at this
          simp only [SchemaError.Shows]
          omega
      · split at h
        · next field hrepeat =>
            cases h
            exact ⟨type, htype, rfl, count_of_firstRepeat? hrepeat⟩
        · refine ih hrest (fun name => ?_) h
          rw [List.cons_append, ← List.perm_middle.count_eq]
          exact hcount name

theorem checkTarget_eq_ok_iff {names : List String} {owner : String} {field : Field} :
    checkTarget names owner field = .ok () ↔
      ∀ target, field.kind.target? = some target → target ∈ names := by
  rw [checkTarget]
  cases field.kind.target? with
  | none => simp
  | some target =>
      by_cases hmem : target ∈ names
      · simp [hmem]
      · simp [hmem]

/-- **The check passes exactly on well-named schemas.** -/
theorem validate_eq_ok_iff {schema : Schema} : schema.validate = .ok () ↔ schema.WellNamed := by
  have htargets : (schema.forM fun type =>
      type.fields.forM (checkTarget schema.names type.name)) = .ok () ↔
        ∀ type ∈ schema, ∀ field ∈ type.fields, ∀ target,
          field.kind.target? = some target → target ∈ schema.names := by
    rw [forM_eq_ok_iff]
    refine forall₂_congr fun type _ => ?_
    rw [forM_eq_ok_iff]
    exact forall₂_congr fun field _ => checkTarget_eq_ok_iff
  rw [validate, bind_eq_ok_iff]
  constructor
  · rintro ⟨⟨⟩, hnames, hall⟩
    obtain ⟨⟨hnodup, -⟩, hfields⟩ := checkNames_eq_ok_iff.1 hnames
    exact ⟨hnodup, hfields, htargets.1 hall⟩
  · rintro ⟨hnodup, hfields, hall⟩
    refine ⟨(), checkNames_eq_ok_iff.2 ⟨⟨hnodup, ?_⟩, hfields⟩, htargets.2 hall⟩
    exact fun _ _ => List.not_mem_nil

/-- **A failed check points at a fault.** -/
theorem shows_of_validate {schema : Schema} {error : SchemaError}
    (h : schema.validate = .error error) : error.Shows schema := by
  rcases bind_eq_error_iff.1 h with hnames | ⟨⟨⟩, -, htargets⟩
  · exact shows_of_checkNames (List.Subset.refl _) (fun name => Nat.le_refl _) hnames
  · obtain ⟨type, htype, hfields⟩ := exists_of_forM_eq_error htargets
    obtain ⟨field, hfield, htarget⟩ := exists_of_forM_eq_error hfields
    rw [checkTarget] at htarget
    split at htarget
    · cases htarget
    · next target hkind =>
        split at htarget
        · cases htarget
        · next hundefined =>
            cases htarget
            exact ⟨type, htype, rfl, field, hfield, rfl, hkind,
              fun hmem => hundefined (List.contains_iff_mem.2 hmem)⟩

theorem nodup_names_of_validate {schema : Schema} (h : schema.validate = .ok ()) :
    schema.names.Nodup :=
  (validate_eq_ok_iff.1 h).types

end Schema

end ScenePack
