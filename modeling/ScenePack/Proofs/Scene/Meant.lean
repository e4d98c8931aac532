/-
**What the source of a scene means.**

The values of a source are converted field by field, into records that hold zeros at first.  What
comes out can be said without following that loop: which JSON values a field takes, and which value
each of them stands for.  An instance is read like an embedded record of its type, so both are
relations between JSON values and values.

Main definitions:

* `ScalarType.least`, `ScalarType.greatest`, `ScalarType.Takes` — the range of an integer type, and
  the JSON numbers that a type takes;
* `Scalar.Means` — the number that a JSON number stands for;
* `InstanceSource.Identified` — the position of the instance with an id;
* `Json.Converts`, `Json.Means` — the JSON values that a field takes, and the values they stand for;
* `InstanceSource.Converts`, `InstanceSource.Means` — the same for instances.

Main results:

* `Scalar.means_of_ofNumber?`, `Scalar.exists_ofNumber?_of_takes` — numbers are read as meant;
* `Scene.convertFields_sets` — **what the loop over members leaves**: each named field is set, and
  no other one is touched;
* `Scene.means_of_convertValue`, `Scene.exists_convertValue` — **values are read as meant**;
* `Scene.ofSource_means` — **a source is read exactly if everything in it converts**, and then every
  instance becomes the record that it stands for.
-/

import ScenePack.Proofs.Json.Distinct
import ScenePack.Proofs.Scene.Parsed

set_option relaxedAutoImplicit false
set_option autoImplicit false

namespace ScenePack

/-! ### Numbers -/

namespace ScalarType

/-- The least and the greatest integer of an integer type. -/
def least (type : ScalarType) : Int := if type.isSigned then -2 ^ (8 * type.size - 1) else 0

@[inherit_doc least] def greatest (type : ScalarType) : Int :=
  if type.isSigned then 2 ^ (8 * type.size - 1) - 1 else 2 ^ (8 * type.size) - 1

end ScalarType

/-- The bit pattern of the single-precision number nearest to the double-precision one. -/
def JsonNumber.toBinary32 (number : JsonNumber) : Nat :=
  FloatFormat.binary64.convert .binary32 number.toBinary64

/-- The JSON numbers that a type takes.  An integer type takes the integers of its range, and no
number that is written with a fraction, an exponent or as negative zero.  A floating-point type
takes all numbers, unless they become infinite in single precision. -/
inductive ScalarType.Takes : ScalarType → JsonNumber → Prop where
  | integer {type : ScalarType} {number : JsonNumber} {value : Int} (whole : type.isFloat = false)
      (value_eq : number.toInt? = some value) (least_le : type.least ≤ value)
      (le_greatest : value ≤ type.greatest) : Takes type number
  | f32 {number : JsonNumber} (finite : FloatFormat.binary32.isFinite number.toBinary32 = true) :
      Takes .f32 number
  | f64 (number : JsonNumber) : Takes .f64 number

/-- The number that a JSON number stands for: the same integer, or the nearest floating-point
number. -/
inductive Scalar.Means : JsonNumber → Scalar → Prop where
  | integer {number : JsonNumber} {scalar : Scalar} (whole : scalar.type.isFloat = false)
      (value_eq : number.toInt? = some scalar.toInt) : Means number scalar
  | f32 {number : JsonNumber} (finite : FloatFormat.binary32.isFinite number.toBinary32 = true) :
      Means number (.truncate .f32 number.toBinary32)
  | f64 (number : JsonNumber) : Means number (.truncate .f64 number.toBinary64)

/-- The range of a type by half of the count of its bit patterns. -/
theorem ScalarType.exists_half (type : ScalarType) : ∃ half : Nat,
    Word.limit type.size = 2 * half ∧ type.least = (if type.isSigned then -(half : Int) else 0) ∧
      type.greatest = if type.isSigned then (half : Int) - 1 else 2 * half - 1 :=
  ⟨Word.limit type.size / 2, by cases type <;> decide⟩

namespace Scalar

theorem toInt_mem (scalar : Scalar) :
    scalar.type.least ≤ scalar.toInt ∧ scalar.toInt ≤ scalar.type.greatest := by
  obtain ⟨half, hlimit, hleast, hgreatest⟩ := scalar.type.exists_half
  have hword := scalar.word_lt
  rw [hlimit] at hword
  rw [hleast, hgreatest, toInt, hlimit]
  cases scalar.type.isSigned with
  | true =>
      simp only [true_and, if_true]
      split <;> omega
  | false =>
      simp only [Bool.false_eq_true, false_and, if_false]
      omega

theorem exists_ofInt? {type : ScalarType} {value : Int} (hleast : type.least ≤ value)
    (hgreatest : value ≤ type.greatest) : ∃ scalar, ofInt? type value = some scalar := by
  obtain ⟨half, hlimit, hleasteq, hgreatesteq⟩ := type.exists_half
  rw [hleasteq] at hleast
  rw [hgreatesteq] at hgreatest
  -- a negative integer is as far below the count of bit patterns as below zero
  obtain ⟨word, hword, hvalue⟩ : ∃ word : Nat, value % (2 * half : Nat) = word ∧
      (value = word ∨ value < 0 ∧ value + 2 * half = word) := by
    rcases Int.lt_or_le value 0 with hneg | hpos
    · refine ⟨(value + 2 * half).toNat, ?_, .inr ⟨hneg, ?_⟩⟩
      · rw [← Int.add_emod_right, Int.emod_eq_of_lt] <;> split at hleast <;> omega
      · split at hleast <;> omega
    · refine ⟨value.toNat, ?_, .inl ?_⟩
      · rw [Int.emod_eq_of_lt] <;> split at hgreatest <;> omega
      · omega
  have hlt : word < 2 * half := by
    split at hleast <;> split at hgreatest <;> omega
  refine ⟨_, if_pos ?_⟩
  simp only [toInt, truncate, hlimit, hword, Int.toNat_natCast, Nat.mod_eq_of_lt hlt]
  cases hsigned : type.isSigned with
  | true =>
      simp only [hsigned, true_and, if_true] at hleast hgreatest ⊢
      split <;> omega
  | false =>
      simp only [hsigned, Bool.false_eq_true, false_and, if_false] at hleast hgreatest ⊢
      omega

theorem toInt_of_ofInt? {type : ScalarType} {value : Int} {scalar : Scalar}
    (h : ofInt? type value = some scalar) : scalar.toInt = value := by
  rw [ofInt?] at h
  split at h
  · next hsame =>
      cases h
      exact hsame
  · cases h

theorem ofNumber?_of_whole {type : ScalarType} (h : type.isFloat = false) (number : JsonNumber) :
    ofNumber? type number = number.toInt?.bind (ofInt? type) := by
  cases type <;> first | rfl | cases h

/-- **A number that is read is the one that is meant.** -/
theorem means_of_ofNumber? {type : ScalarType} {number : JsonNumber} {scalar : Scalar}
    (h : ofNumber? type number = some scalar) : Means number scalar := by
  have htype := type_of_ofNumber? h
  cases hfloat : type.isFloat with
  | false =>
      rw [ofNumber?_of_whole hfloat] at h
      obtain ⟨value, hvalue, hscalar⟩ := Option.bind_eq_some_iff.1 h
      exact .integer (htype ▸ hfloat) (by rw [hvalue, toInt_of_ofInt? hscalar])
  | true =>
      cases type <;> try cases hfloat
      · rw [ofNumber?] at h
        split at h
        · next hfinite =>
            cases h
            exact .f32 hfinite
        · cases h
      · cases h
        exact .f64 number

/-- **Every number that a type takes is read.** -/
theorem exists_ofNumber?_of_takes {type : ScalarType} {number : JsonNumber}
    (h : type.Takes number) : ∃ scalar, ofNumber? type number = some scalar := by
  cases h with
  | integer hwhole hvalue hleast hgreatest =>
      obtain ⟨scalar, hscalar⟩ := exists_ofInt? hleast hgreatest
      exact ⟨scalar, by rw [ofNumber?_of_whole hwhole, hvalue]; exact hscalar⟩
  | f32 hfinite => exact ⟨_, if_pos hfinite⟩
  | f64 => exact ⟨_, rfl⟩

theorem Means.takes {number : JsonNumber} {scalar : Scalar} (h : Means number scalar) :
    scalar.type.Takes number := by
  cases h with
  | integer hwhole hvalue => exact .integer hwhole hvalue scalar.toInt_mem.1 scalar.toInt_mem.2
  | f32 hfinite => exact .f32 hfinite
  | f64 => exact .f64 number

end Scalar

/-! ### Values -/

/-- The instance with an id stands at a position of a source. -/
def InstanceSource.Identified (sources : List InstanceSource) (id : String) (key : InstanceKey) :
    Prop :=
  ∃ source, sources[key]? = some source ∧ source.id = some id

namespace Json

/-- The JSON values that a field of a kind takes.  An embedded record takes an object whose keys
name fields of its type and whose values these fields take; a reference takes an object with the id
of an instance, whatever else is in it. -/
inductive Converts (registry : Registry) (sources : List InstanceSource) :
    FieldKind Target → Json → Prop where
  | number {type : ScalarType} {number : JsonNumber} (takes : type.Takes number) :
      Converts registry sources (.scalar type) (.number number)
  | noText : Converts registry sources .text .null
  | text (content : String) : Converts registry sources .text (.string content)
  | component {target : Target} {layout : RecordLayout} {members : List (String × Json)}
      (layout_eq : registry.layout? target.id = some layout)
      (known : ∀ member ∈ members, ∃ field ∈ layout.fields, field.name = member.1)
      (converts : ∀ member ∈ members, ∀ field ∈ layout.fields, field.name = member.1 →
        Converts registry sources field.kind member.2) :
      Converts registry sources (.component target) (.object members)
  | noRef (target : Target) : Converts registry sources (.ref target) .null
  | ref {target : Target} {members : List (String × Json)} {id : String} {key : InstanceKey}
      (id_eq : members.lookup "ref" = some (.string id))
      (identified : InstanceSource.Identified sources id key) :
      Converts registry sources (.ref target) (.object members)

/-- The value that a JSON value stands for, in a field of a kind.  In an embedded record each named
field has the value that is given for it, and every other field is zero.  A reference leads to the
position of the instance with the given id. -/
inductive Means (registry : Registry) (sources : List InstanceSource) :
    FieldKind Target → Json → Value → Prop where
  | number {number : JsonNumber} {scalar : Scalar} (means : Scalar.Means number scalar) :
      Means registry sources (.scalar scalar.type) (.number number) (.scalar scalar)
  | noText : Means registry sources .text .null (.text none)
  | text (content : String) :
      Means registry sources .text (.string content) (.text (some content))
  | component {target : Target} {layout : RecordLayout} {members : List (String × Json)}
      {values : List Value} (layout_eq : registry.layout? target.id = some layout)
      (known : ∀ member ∈ members, ∃ field ∈ layout.fields, field.name = member.1)
      (length_eq : values.length = layout.fields.length)
      (named : ∀ field value json, (field, value) ∈ layout.fields.zip values →
        members.lookup field.name = some json → Means registry sources field.kind json value)
      (unnamed : ∀ field value, (field, value) ∈ layout.fields.zip values →
        members.lookup field.name = none → registry.Zeros [field] [value]) :
      Means registry sources (.component target) (.object members) (.component layout.id values)
  | noRef (target : Target) : Means registry sources (.ref target) .null (.ref none)
  | ref {target : Target} {members : List (String × Json)} {id : String} {key : InstanceKey}
      (id_eq : members.lookup "ref" = some (.string id))
      (identified : InstanceSource.Identified sources id key) :
      Means registry sources (.ref target) (.object members) (.ref (some key))

/-- What stands for a value converts, if it has distinct keys. -/
theorem Means.converts {registry : Registry} {sources : List InstanceSource}
    {kind : FieldKind Target} {json : Json} {value : Value}
    (h : json.Means registry sources kind value) (hdistinct : json.Distinct) :
    json.Converts registry sources kind := by
  induction h with
  | number hmeans => exact .number hmeans.takes
  | noText => exact .noText
  | text content => exact .text content
  | @component _ layout members values hlayout hknown hlength _ _ ih =>
      cases hdistinct with | object hkeys hmembers =>
      refine .component hlayout hknown fun member hmember field hfield hname => ?_
      obtain ⟨index, hindex⟩ := List.mem_iff_getElem?.1 hfield
      have hlt := (List.getElem?_eq_some_iff.1 hindex).1
      rw [← hlength] at hlt
      have hvalue := List.getElem?_eq_getElem hlt
      refine ih field values[index] member.2 ?_ ?_ (hmembers member hmember)
      · exact List.mem_of_getElem? (List.getElem?_zip_eq_some.2 ⟨hindex, hvalue⟩)
      · rw [hname]
        exact lookup_of_nodup hkeys hmember
  | noRef target => exact .noRef target
  | ref hid hidentified => exact .ref hid hidentified

end Json

/-! ### The conversion of values -/

/-- The place of a name among the fields, if no other field has it. -/
theorem RecordLayout.find?_eq_some_iff {layout : RecordLayout}
    (hnodup : (layout.fields.map FieldLayout.name).Nodup) {name : String} {field : FieldLayout}
    {index : Nat} :
    layout.find? name = some (field, index) ↔
      layout.fields[index]? = some field ∧ field.name = name := by
  refine ⟨getElem?_of_find?, ?_⟩
  rintro ⟨hindex, rfl⟩
  cases hfind : layout.find? field.name with
  | none =>
      have hpair : (field, index) ∈ layout.fields.zipIdx := List.mem_zipIdx_iff_getElem?.2 hindex
      simpa using List.find?_eq_none.1 hfind _ hpair
  | some place =>
      obtain ⟨other, position⟩ := place
      obtain ⟨hposition, hname⟩ := getElem?_of_find? hfind
      -- the names are distinct, so there is one place for the name
      obtain rfl : position = index := by
        have hlt := (List.getElem?_eq_some_iff.1 hposition).1
        refine (List.getElem?_inj (by simpa using hlt) hnodup).1 ?_
        rw [List.getElem?_map, List.getElem?_map, hposition, hindex, Option.map_some,
          Option.map_some, hname]
      rw [hposition, Option.some_inj] at hindex
      rw [hindex]

/-- Zeros are zero one by one. -/
theorem Registry.Zeros.of_mem_zip {registry : Registry} {fields : List FieldLayout}
    {values : List Value}
    (h : registry.Zeros fields values) {field : FieldLayout} {value : Value}
    (hmem : (field, value) ∈ fields.zip values) : registry.Zeros [field] [value] := by
  induction h with
  | nil => cases hmem
  | scalar hkind _ ih =>
      rcases List.mem_cons.1 hmem with hhead | hrest
      · cases hhead
        exact .scalar hkind .nil
      · exact ih hrest
  | text hkind _ ih =>
      rcases List.mem_cons.1 hmem with hhead | hrest
      · cases hhead
        exact .text hkind .nil
      · exact ih hrest
  | ref hkind _ ih =>
      rcases List.mem_cons.1 hmem with hhead | hrest
      · cases hhead
        exact .ref hkind .nil
      · exact ih hrest
  | unknown hkind hnone _ ih =>
      rcases List.mem_cons.1 hmem with hhead | hrest
      · cases hhead
        exact .unknown hkind hnone .nil
      · exact ih hrest
  | component hkind hinner hembedded _ _ ih =>
      rcases List.mem_cons.1 hmem with hhead | hrest
      · cases hhead
        exact .component hkind hinner hembedded .nil
      · exact ih hrest

namespace Scene

variable {registry : Registry} {ids : InstanceIds} {owner : RecordLayout} {field : FieldLayout}
  {json : Json} {value : Value}

theorem convertValue_scalar_iff {type : ScalarType} (hkind : field.kind = .scalar type) :
    convertValue registry ids owner field json = .ok value ↔
      ∃ number scalar, json = .number number ∧ Scalar.ofNumber? type number = some scalar ∧
        value = .scalar scalar := by
  rw [convertValue.eq_def, hkind]
  cases json with
  | number number =>
      dsimp only
      cases hfound : Scalar.ofNumber? type number <;> simp [hfound, eq_comm (a := value)]
  | _ => simp

theorem convertValue_text_iff (hkind : field.kind = .text) :
    convertValue registry ids owner field json = .ok value ↔
      json = .null ∧ value = .text none ∨
        ∃ content, json = .string content ∧ value = .text (some content) := by
  rw [convertValue.eq_def, hkind]
  cases json <;> simp [eq_comm]

theorem convertValue_component_iff {target : Target} (hkind : field.kind = .component target) :
    convertValue registry ids owner field json = .ok value ↔
      ∃ members layout values, json = .object members ∧
        registry.layout? target.id = some layout ∧
        convertFields registry ids layout (registry.zeroRecord layout).values members =
          .ok values ∧ value = .component layout.id values := by
  rw [convertValue.eq_def, hkind]
  cases json with
  | object members =>
      dsimp only
      cases registry.layout? target.id with
      | none => simp
      | some layout => simp [map_eq_ok_iff, eq_comm (a := value)]
  | _ => simp

theorem convertValue_ref_iff {target : Target} (hkind : field.kind = .ref target) :
    convertValue registry ids owner field json = .ok value ↔
      json = .null ∧ value = .ref none ∨
        ∃ members id key, json = .object members ∧ members.lookup "ref" = some (.string id) ∧
          ids.lookup id = some key ∧ value = .ref (some key) := by
  rw [convertValue.eq_def, hkind]
  cases json with
  | null => simp [eq_comm]
  | object members =>
      rw [map_eq_ok_iff]
      simp only [convertRef]
      constructor
      · rintro ⟨key, hkey, rfl⟩
        split at hkey
        · next id hid =>
            split at hkey
            · next hfound =>
                cases hkey
                exact .inr ⟨members, id, key, rfl, hid, hfound, rfl⟩
            · cases hkey
        · cases hkey
      · rintro (⟨hnull, -⟩ | ⟨_, id, key, hmembers, hid, hfound, rfl⟩)
        · cases hnull
        · cases hmembers
          exact ⟨key, by simp only [hid, hfound], rfl⟩
  | _ => simp [convertRef, map_eq_ok_iff]

/-! ### The loop over members -/

/-- **What the loop over members leaves.**  Each member names a field and converts, the value of
that field is set, and the values that no member names stay as they were. -/
theorem convertFields_sets {layout : RecordLayout} {members : List (String × Json)}
    {values changed : List Value} (hkeys : (members.map Prod.fst).Nodup)
    (h : convertFields registry ids layout values members = .ok changed) :
    changed.length = values.length ∧
      (∀ member ∈ members, ∃ field index value, layout.find? member.1 = some (field, index) ∧
        convertValue registry ids layout field member.2 = .ok value ∧
        (index < values.length → changed[index]? = some value)) ∧
      ∀ index, (∀ member ∈ members, ∀ field, layout.find? member.1 ≠ some (field, index)) →
        changed[index]? = values[index]? := by
  induction members generalizing values with
  | nil =>
      rw [convertFields] at h
      cases h
      exact ⟨rfl, fun _ hmember => absurd hmember List.not_mem_nil, fun _ _ => rfl⟩
  | cons member rest ih =>
      obtain ⟨name, json⟩ := member
      rw [convertFields] at h
      split at h
      · cases h
      next field index hfind =>
      obtain ⟨value, hvalue, hrest⟩ := bind_eq_ok_iff.1 h
      obtain ⟨hfresh, hkeys⟩ := List.nodup_cons.1 hkeys
      obtain ⟨hlength, hset, hkept⟩ := ih hkeys hrest
      rw [List.length_set] at hlength hset
      refine ⟨hlength, List.forall_mem_cons.2 ⟨⟨field, index, value, hfind, hvalue, ?_⟩, hset⟩, ?_⟩
      · -- no later member has the name of this field
        intro hlt
        rw [hkept index ?_, List.getElem?_set_self hlt]
        intro other hother found hfound
        obtain ⟨hfield, hname⟩ := RecordLayout.getElem?_of_find? hfind
        obtain ⟨hfound, hothername⟩ := RecordLayout.getElem?_of_find? hfound
        rw [hfield, Option.some_inj] at hfound
        refine hfresh ?_
        rw [← hname, hfound, hothername]
        exact List.mem_map.2 ⟨other, hother, rfl⟩
      · intro position hposition
        obtain ⟨hfirst, hothers⟩ := List.forall_mem_cons.1 hposition
        have hne : index ≠ position := by
          rintro rfl
          exact hfirst field hfind
        rw [hkept position hothers, List.getElem?_set_ne hne]

/-- The loop succeeds if each member names a field and converts. -/
theorem exists_convertFields {layout : RecordLayout} {members : List (String × Json)}
    (h : ∀ member ∈ members, ∃ field index value, layout.find? member.1 = some (field, index) ∧
      convertValue registry ids layout field member.2 = .ok value) (values : List Value) :
    ∃ changed, convertFields registry ids layout values members = .ok changed := by
  induction members generalizing values with
  | nil => exact ⟨values, by rw [convertFields]⟩
  | cons member rest ih =>
      obtain ⟨⟨field, index, value, hfind, hvalue⟩, hrest⟩ := List.forall_mem_cons.1 h
      obtain ⟨changed, hchanged⟩ := ih hrest (values.set index value)
      refine ⟨changed, ?_⟩
      rw [convertFields, hfind]
      exact bind_eq_ok_iff.2 ⟨value, hvalue, hchanged⟩

/-! ### Values are read as meant -/

variable {sources : List InstanceSource}

/-- A record that is read is the one that is meant, if the values of its members are. -/
theorem means_of_convertFields (hgrounded : registry.Grounded) {target : Target}
    {layout : RecordLayout} (hlayout : registry.layout? target.id = some layout)
    (hnodup : (layout.fields.map FieldLayout.name).Nodup) {members : List (String × Json)}
    (hkeys : (members.map Prod.fst).Nodup)
    (hmeans : ∀ member ∈ members, ∀ field value,
      convertValue registry ids layout field member.2 = .ok value →
      member.2.Means registry sources field.kind value) {values : List Value}
    (h : convertFields registry ids layout (registry.zeroRecord layout).values members =
      .ok values) :
    Json.Means registry sources (.component target) (.object members)
      (.component layout.id values) := by
  have hzeros := (Registry.zeros_iff hgrounded (Registry.mem_types_of_layout? hlayout)).2 rfl
  have hcount : (registry.zeroRecord layout).values.length = layout.fields.length :=
    List.length_map _
  obtain ⟨hlength, hset, hkept⟩ := convertFields_sets hkeys h
  rw [hcount] at hlength hset
  refine .component hlayout ?_ hlength ?_ ?_
  · intro member hmember
    obtain ⟨field, index, _, hfind, -⟩ := hset member hmember
    obtain ⟨hindex, hname⟩ := RecordLayout.getElem?_of_find? hfind
    exact ⟨field, List.mem_of_getElem? hindex, hname⟩
  · intro field value json hzip hlookup
    obtain ⟨index, hindex⟩ := List.mem_iff_getElem?.1 hzip
    obtain ⟨hfield, hvalue⟩ := List.getElem?_zip_eq_some.1 hindex
    have hmember := mem_of_lookup_eq_some hlookup
    obtain ⟨_, _, converted, hfind, hconverted, hchanged⟩ := hset _ hmember
    cases ((RecordLayout.find?_eq_some_iff hnodup).2 ⟨hfield, rfl⟩).symm.trans hfind
    rw [hchanged (List.getElem?_eq_some_iff.1 hfield).1, Option.some_inj] at hvalue
    obtain rfl : converted = value := hvalue
    exact hmeans _ hmember field converted hconverted
  · intro field value hzip hlookup
    obtain ⟨index, hindex⟩ := List.mem_iff_getElem?.1 hzip
    obtain ⟨hfield, hvalue⟩ := List.getElem?_zip_eq_some.1 hindex
    rw [hkept index ?_] at hvalue
    · exact hzeros.of_mem_zip
        (List.mem_of_getElem? (List.getElem?_zip_eq_some.2 ⟨hfield, hvalue⟩))
    · intro member hmember found hfind
      obtain ⟨hsame, hname⟩ := RecordLayout.getElem?_of_find? hfind
      cases hfield.symm.trans hsame
      exact absurd hname (by simpa using List.lookup_eq_none_iff.1 hlookup member hmember)

/-- **A value that is read is the one that is meant.** -/
theorem means_of_convertValue (hgrounded : registry.Grounded)
    (hnames : ∀ layout ∈ registry.types, (layout.fields.map FieldLayout.name).Nodup)
    (hids : ∀ id key, ids.lookup id = some key ↔ InstanceSource.Identified sources id key)
    (hdistinct : json.Distinct)
    (h : convertValue registry ids owner field json = .ok value) :
    json.Means registry sources field.kind value := by
  -- members are smaller than the object that holds them
  induction hsize : sizeOf json using Nat.strongRecOn generalizing json owner field value with
  | ind size ih =>
      cases hkind : field.kind with
      | scalar type =>
          obtain ⟨number, scalar, rfl, hnumber, rfl⟩ := (convertValue_scalar_iff hkind).1 h
          rw [← Scalar.type_of_ofNumber? hnumber]
          exact .number (Scalar.means_of_ofNumber? hnumber)
      | text =>
          obtain ⟨rfl, rfl⟩ | ⟨content, rfl, rfl⟩ := (convertValue_text_iff hkind).1 h
          · exact .noText
          · exact .text content
      | ref target =>
          obtain ⟨rfl, rfl⟩ | ⟨members, id, key, rfl, hid, hkey, rfl⟩ :=
            (convertValue_ref_iff hkind).1 h
          · exact .noRef target
          · exact .ref hid ((hids id key).1 hkey)
      | component target =>
          obtain ⟨members, layout, values, rfl, hlayout, hvalues, rfl⟩ :=
            (convertValue_component_iff hkind).1 h
          cases hdistinct with | object hkeys hmembers =>
          have hnodup := hnames layout (Registry.mem_types_of_layout? hlayout)
          refine means_of_convertFields hgrounded hlayout hnodup hkeys ?_ hvalues
          intro member hmember field value hvalue
          refine ih (sizeOf member.2) ?_ (hmembers member hmember) hvalue rfl
          have hlt := List.sizeOf_lt_of_mem hmember
          obtain ⟨key, json⟩ := member
          rw [Prod.mk.sizeOf_spec] at hlt
          rw [← hsize, Json.object.sizeOf_spec]
          dsimp only
          omega

/-- **Every value that converts is read.** -/
theorem exists_convertValue
    (hnames : ∀ layout ∈ registry.types, (layout.fields.map FieldLayout.name).Nodup)
    (hids : ∀ id key, ids.lookup id = some key ↔ InstanceSource.Identified sources id key)
    {kind : FieldKind Target} (h : json.Converts registry sources kind) (owner : RecordLayout)
    (hkind : field.kind = kind) :
    ∃ value, convertValue registry ids owner field json = .ok value := by
  induction h generalizing owner field with
  | number htakes =>
      obtain ⟨scalar, hscalar⟩ := Scalar.exists_ofNumber?_of_takes htakes
      exact ⟨_, (convertValue_scalar_iff hkind).2 ⟨_, scalar, rfl, hscalar, rfl⟩⟩
  | noText => exact ⟨_, (convertValue_text_iff hkind).2 (.inl ⟨rfl, rfl⟩)⟩
  | text content => exact ⟨_, (convertValue_text_iff hkind).2 (.inr ⟨content, rfl, rfl⟩)⟩
  | noRef target => exact ⟨_, (convertValue_ref_iff hkind).2 (.inl ⟨rfl, rfl⟩)⟩
  | ref hid hidentified =>
      exact ⟨_, (convertValue_ref_iff hkind).2
        (.inr ⟨_, _, _, rfl, hid, (hids _ _).2 hidentified, rfl⟩)⟩
  | @component target layout members hlayout hknown _ ih =>
      have hnodup := hnames layout (Registry.mem_types_of_layout? hlayout)
      have hmembers : ∀ member ∈ members, ∃ field index value,
          layout.find? member.1 = some (field, index) ∧
            convertValue registry ids layout field member.2 = .ok value := by
        intro member hmember
        obtain ⟨field, hfield, hname⟩ := hknown member hmember
        obtain ⟨index, hindex⟩ := List.mem_iff_getElem?.1 hfield
        obtain ⟨value, hvalue⟩ := ih member hmember field hfield hname layout rfl
        exact ⟨field, index, value,
          (RecordLayout.find?_eq_some_iff hnodup).2 ⟨hindex, hname⟩, hvalue⟩
      obtain ⟨values, hvalues⟩ :=
        exists_convertFields hmembers (registry.zeroRecord layout).values
      exact ⟨_, (convertValue_component_iff hkind).2
        ⟨members, layout, values, rfl, hlayout, hvalues, rfl⟩⟩

/-! ### Sources -/

/-- Without repeated ids, each id is found at the position of its instance. -/
theorem lookup_idsOf_iff (hnodup : (sources.filterMap InstanceSource.id).Nodup) (id : String)
    (key : InstanceKey) :
    (idsOf sources).lookup id = some key ↔ InstanceSource.Identified sources id key := by
  have hkeys : (idsOf sources).map Prod.fst = sources.filterMap InstanceSource.id := by
    rw [idsOf, List.map_filterMap]
    conv => rhs; rw [← List.zipIdx_map_fst 0 sources, List.filterMap_map]
    refine List.filterMap_congr fun entry _ => ?_
    simp [Function.comp_def]
  constructor
  · intro h
    obtain ⟨⟨source, position⟩, hsource, hpair⟩ := List.mem_filterMap.1 (mem_of_lookup_eq_some h)
    obtain ⟨_, hid, hsame⟩ := Option.map_eq_some_iff.1 hpair
    cases hsame
    exact ⟨source, List.mem_zipIdx_iff_getElem?.1 hsource, hid⟩
  · rintro ⟨source, hsource, hid⟩
    refine lookup_of_nodup (hkeys ▸ hnodup) (List.mem_filterMap.2 ⟨(source, key), ?_, ?_⟩)
    · exact List.mem_zipIdx_iff_getElem?.2 hsource
    · rw [hid]
      rfl

end Scene

/-- The field that embeds a record of a type. -/
def RecordLayout.asField (layout : RecordLayout) : FieldLayout :=
  ⟨layout.name, .component ⟨layout.name, layout.id⟩, 0, layout.size, layout.align⟩

namespace InstanceSource

/-- An instance converts if its type is known and the object of its fields converts for the type. -/
def Converts (registry : Registry) (sources : List InstanceSource) (source : InstanceSource) :
    Prop :=
  ∃ layout ∈ registry.types, layout.name = source.type ∧
    Json.Converts registry sources layout.asField.kind (.object source.fields)

/-- The record that an instance stands for: that of its fields, for its type. -/
def Means (registry : Registry) (sources : List InstanceSource) (source : InstanceSource)
    (record : Record) : Prop :=
  ∃ layout ∈ registry.types, layout.name = source.type ∧
    Json.Means registry sources layout.asField.kind (.object source.fields) (.ofRecord record)

end InstanceSource

namespace Scene

variable {registry : Registry} {sources : List InstanceSource}

/-- An instance is read like an embedded record of its type. -/
theorem convertInstance_eq_ok_iff (hgrounded : registry.Grounded) {ids : InstanceIds}
    {source : InstanceSource} {record : Record} :
    convertInstance registry ids source = .ok record ↔
      ∃ layout, registry.named? source.type = some layout ∧
        convertValue registry ids layout layout.asField (.object source.fields) =
          .ok (.ofRecord record) := by
  rw [convertInstance]
  cases hnamed : registry.named? source.type with
  | none => simp
  | some layout =>
      obtain ⟨position, hlayout⟩ := Registry.exists_layout?_of_named? hnamed
      obtain rfl := hgrounded.id_eq hlayout
      simp only [map_eq_ok_iff, Option.some.injEq, exists_eq_left']
      rw [convertValue_component_iff rfl]
      constructor
      · rintro ⟨values, hvalues, rfl⟩
        exact ⟨_, layout, values, rfl, hlayout, hvalues, rfl⟩
      · rintro ⟨_, found, values, hmembers, hfound, hvalues, hrecord⟩
        cases hmembers
        cases hlayout.symm.trans hfound
        obtain ⟨typeId, own⟩ := record
        cases hrecord
        exact ⟨own, hvalues, rfl⟩

/-- **A source is read exactly if everything in it converts**, and then as it is meant.  Its ids
must be distinct and its types known; the fields that an instance gives must be fields of its type,
and their values must be such as the fields take, at any depth.  The scene then has one record for
each instance, in order, in which the given fields have the values that they stand for and all
others are zero. -/
theorem ofSource_means {schema : Schema} {config : LayoutConfig}
    (hbuild : Registry.build schema config = .ok registry)
    (hdistinct : ∀ source ∈ sources, source.Distinct) :
    ((∃ scene, ofSource registry sources = .ok scene) ↔
      (sources.filterMap InstanceSource.id).Nodup ∧
        ∀ source ∈ sources, source.Converts registry sources) ∧
    (∀ scene, ofSource registry sources = .ok scene →
      List.Forall₂ (InstanceSource.Means registry sources) sources scene) ∧
    ∀ text, InstanceSource.readAll text = .ok sources →
      read registry text = ofSource registry sources := by
  have hgrounded := Registry.grounded_of_build hbuild
  have hlists := Registry.lists_of_build hbuild
  obtain ⟨-, hvalid, -⟩ := Registry.buildWith_eq_ok_iff.1 hbuild
  have hnames : ∀ layout ∈ registry.types, (layout.fields.map FieldLayout.name).Nodup :=
    fun layout => hlists.nodup_fields (Schema.validate_eq_ok_iff.1 hvalid)
  have hmeans : ∀ scene, ofSource registry sources = .ok scene →
      (sources.filterMap InstanceSource.id).Nodup ∧
        List.Forall₂ (InstanceSource.Means registry sources) sources scene := by
    intro scene hscene
    rw [ofSource] at hscene
    split at hscene
    · cases hscene
    next hids =>
    have hnodup := (firstRepeat?_eq_none_iff.1 hids).1
    refine ⟨hnodup, forall₂_imp_of_mem ?_ (mapM_eq_ok_iff.1 hscene)⟩
    intro source hsource record hrecord
    obtain ⟨layout, hnamed, hvalue⟩ := (convertInstance_eq_ok_iff hgrounded).1 hrecord
    obtain ⟨hlayout, hname⟩ := hlists.named?_eq_some_iff.1 hnamed
    exact ⟨layout, hlayout, hname, means_of_convertValue hgrounded hnames
      (lookup_idsOf_iff hnodup) (hdistinct source hsource) hvalue⟩
  refine ⟨⟨?_, ?_⟩, fun scene hscene => (hmeans scene hscene).2, ?_⟩
  · rintro ⟨scene, hscene⟩
    obtain ⟨hnodup, hall⟩ := hmeans scene hscene
    refine ⟨hnodup, fun source hsource => ?_⟩
    obtain ⟨record, -, layout, hlayout, hname, hrecord⟩ := exists_mem_of_forall₂ hall.flip hsource
    exact ⟨layout, hlayout, hname, hrecord.converts (hdistinct source hsource)⟩
  · rintro ⟨hnodup, hall⟩
    rw [ofSource, firstRepeat?_eq_none_iff.2 ⟨hnodup, fun _ _ => List.not_mem_nil⟩]
    refine exists_mapM_eq_ok fun source hsource => ?_
    obtain ⟨layout, hlayout, hname, hconverts⟩ := hall source hsource
    obtain ⟨value, hvalue⟩ :=
      exists_convertValue hnames (lookup_idsOf_iff hnodup) hconverts layout rfl
    obtain ⟨_, found, values, -, -, -, rfl⟩ := (convertValue_component_iff rfl).1 hvalue
    exact ⟨⟨found.id, values⟩, (convertInstance_eq_ok_iff hgrounded).2
      ⟨layout, hlists.named?_eq_some_iff.2 ⟨hlayout, hname⟩, hvalue⟩⟩
  · intro text htext
    rw [read, htext]

end Scene

namespace Sample

/-- The instances of the sample source. -/
def instances : List InstanceSource :=
  [⟨none, "Node",
      [("next", .object [("ref", .string "t")]), ("tag", .object [("label", .string "a")])]⟩,
    ⟨some "t", "Tag", []⟩]

theorem readAll_source : InstanceSource.readAll source = .ok instances := by cbv

end Sample

/-- The sample source is read as it is meant. -/
theorem Scene.ofSource_means_sample :
    Registry.build Sample.schema ⟨16⟩ = .ok Sample.registry ∧
      (∀ source ∈ Sample.instances, source.Distinct) ∧
      (Sample.instances.filterMap InstanceSource.id).Nodup ∧
      (∀ source ∈ Sample.instances, source.Converts Sample.registry Sample.instances) ∧
      List.Forall₂ (InstanceSource.Means Sample.registry Sample.instances) Sample.instances
        Sample.misdirected := by
  have hdistinct := InstanceSource.distinct_of_readAll Sample.readAll_source
  obtain ⟨hiff, hmeans, hread⟩ := ofSource_means Sample.build_schema hdistinct
  have hscene : ofSource Sample.registry Sample.instances = .ok Sample.misdirected := by
    rw [← hread Sample.source Sample.readAll_source, Sample.read_source]
  obtain ⟨hnodup, hconverts⟩ := hiff.1 ⟨_, hscene⟩
  exact ⟨Sample.build_schema, hdistinct, hnodup, hconverts, hmeans _ hscene⟩

end ScenePack
