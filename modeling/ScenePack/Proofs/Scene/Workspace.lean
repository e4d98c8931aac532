/-
**Working on records and scenes.**

A caller holds records and scenes, and makes more of them with one registry: new records, records
with a field set, copies of embedded records and of records of a scene, scenes that records are
pushed to, and scenes that are read from texts and images.  A value that is set is checked against
the kind of its field only, and an embedded record is taken as it is; still, all that is held is
well formed at any time.

Main definitions:

* `Workspace` — what a caller holds;
* `Workspace.Call`, `Workspace.call` — the calls, and what they answer;
* `Workspace.Yields`, `Workspace.YieldsAll` — what a call can make of the records that are held;
* `Workspace.Step`, `Workspace.run` — the calls of a run, one after the other;
* `Workspace.Keeps`, `Workspace.Kept` — what holds of a call and of a run.

Main results:

* `Workspace.yields_call` — **all that a call can make**;
* `Workspace.Formed.keeps_call` — **each call keeps what is held well formed**;
* `Workspace.run_kept` — **in every run all that is held is well formed**, no call that fails
  changes anything, and the recursion that fills new records ends for every type.
-/

import ScenePack.Proofs.Scene.Producers

set_option relaxedAutoImplicit false
set_option autoImplicit false

namespace ScenePack

/-- The records and the scenes that a caller holds. -/
structure Workspace where
  records : List Record
  scenes : List Scene

namespace Workspace

/-! ### Calls -/

/-- A value that a caller gives for a field.  A copy of a record that is held can be embedded. -/
inductive Operand where
  | scalar (number : Scalar)
  | text (content : Option String)
  | ref (key : Option InstanceKey)
  | record (slot : Nat)

/-- A call.  Records and scenes that are held are known by their places. -/
inductive Call where
  /-- A new record of a type. -/
  | new (name : String)
  /-- A field of a record is set in place. -/
  | set (slot : Nat) (field : String) (operand : Operand)
  /-- A copy of a record with a field set. -/
  | build (slot : Nat) (field : String) (operand : Operand)
  /-- A copy of the record that is embedded in a field. -/
  | take (slot : Nat) (field : String)
  /-- A scene without records. -/
  | empty
  /-- A copy of a record is added to a scene. -/
  | push (place slot : Nat)
  /-- A field of a record of a scene is set in place. -/
  | setField (place : Nat) (key : InstanceKey) (field : String) (operand : Operand)
  /-- A copy of a record of a scene. -/
  | pick (place : Nat) (key : InstanceKey)
  /-- The scene of a text. -/
  | read (text : String)
  /-- The scene of an image whose pointers hold positions plus `base`. -/
  | describe (base : Nat) (bytes : Bytes)
  /-- The scene of an image that is resolved in a buffer at an address. -/
  | resolve (address : Nat) (bytes : Bytes)

/-- Whether a call sets a field. -/
def Call.Sets : Call → Prop
  | .set _ _ _ | .build _ _ _ | .setField _ _ _ _ => True
  | _ => False

/-- Why a call fails. -/
inductive Failure where
  | scene (error : SceneError)
  | image (error : ImageError)
  /-- What the call names is not held. -/
  | notHeld

/-- The value that an operand stands for. -/
def value? (workspace : Workspace) : Operand → Option Value
  | .scalar number => some (.scalar number)
  | .text content => some (.text content)
  | .ref key => some (.ref key)
  | .record slot => workspace.records[slot]?.map Value.ofRecord

/-- The workspace with one more record. -/
def hold (workspace : Workspace) (record : Record) : Workspace :=
  { workspace with records := workspace.records ++ [record] }

/-- The workspace with one more scene. -/
def holdScene (workspace : Workspace) (scene : Scene) : Workspace :=
  { workspace with scenes := workspace.scenes ++ [scene] }

/-- The workspace with another record at a place. -/
def replace (workspace : Workspace) (slot : Nat) (record : Record) : Workspace :=
  { workspace with records := workspace.records.set slot record }

/-- The workspace with another scene at a place. -/
def replaceScene (workspace : Workspace) (place : Nat) (scene : Scene) : Workspace :=
  { workspace with scenes := workspace.scenes.set place scene }

/-- The scene of a view is held, if there is one. -/
def holdView (workspace : Workspace) (view : Except ImageError View) :
    Except Failure Unit × Workspace :=
  match view >>= View.toScene with
  | .ok scene => (.ok (), workspace.holdScene scene)
  | .error error => (.error (.image error), workspace)

/-- What a call answers, and the workspace after it. -/
def call (registry : Registry) (workspace : Workspace) : Call → Except Failure Unit × Workspace
  | .new name =>
      match Record.new registry name with
      | .ok record => (.ok (), workspace.hold record)
      | .error error => (.error (.scene error), workspace)
  | .set slot field operand =>
      match workspace.records[slot]?, workspace.value? operand with
      | some record, some value =>
          match record.set registry field value with
          | .ok changed => (.ok (), workspace.replace slot changed)
          | .error error => (.error (.scene error), workspace)
      | _, _ => (.error .notHeld, workspace)
  | .build slot field operand =>
      match workspace.records[slot]?, workspace.value? operand with
      | some record, some value =>
          match record.set registry field value with
          | .ok changed => (.ok (), workspace.hold changed)
          | .error error => (.error (.scene error), workspace)
      | _, _ => (.error .notHeld, workspace)
  | .take slot field =>
      match workspace.records[slot]?.bind fun record => record.get? registry field with
      | some (.component typeId values) => (.ok (), workspace.hold ⟨typeId, values⟩)
      | _ => (.error .notHeld, workspace)
  | .empty => (.ok (), workspace.holdScene [])
  | .push place slot =>
      match workspace.scenes[place]?, workspace.records[slot]? with
      | some scene, some record => (.ok (), workspace.replaceScene place (scene ++ [record]))
      | _, _ => (.error .notHeld, workspace)
  | .setField place key field operand =>
      match workspace.scenes[place]?, workspace.value? operand with
      | some scene, some value =>
          match scene.setField registry key field value with
          | some (.ok changed) => (.ok (), workspace.replaceScene place changed)
          | some (.error error) => (.error (.scene error), workspace)
          | none => (.error .notHeld, workspace)
      | _, _ => (.error .notHeld, workspace)
  | .pick place key =>
      match workspace.scenes[place]?.bind fun scene => scene[key]? with
      | some record => (.ok (), workspace.hold record)
      | none => (.error .notHeld, workspace)
  | .read text =>
      match Scene.read registry text with
      | .ok scene => (.ok (), workspace.holdScene scene)
      | .error error => (.error (.scene error), workspace)
  | .describe base bytes => workspace.holdView (View.ofBytes registry base bytes)
  | .resolve address bytes =>
      workspace.holdView ((Buffer.ofBytes address bytes).resolve registry).1

/-! ### What a call can make -/

/-- A record that is held, by itself or in a scene. -/
def Holds (workspace : Workspace) (record : Record) : Prop :=
  record ∈ workspace.records ∨ ∃ scene ∈ workspace.scenes, record ∈ scene

/-- **What a call can make of the records that are held**: it keeps them, makes one that is well
formed for its registry, sets a field, or takes out a record that is embedded. -/
inductive Yields (registry : Registry) (workspace : Workspace) : Record → Prop where
  | held {record : Record} (h : workspace.Holds record) : Yields registry workspace record
  | fresh {record : Record} (h : record.Formed registry) : Yields registry workspace record
  | set {record changed : Record} {field : String} {operand : Operand} {value : Value}
      (h : workspace.Holds record) (hvalue : workspace.value? operand = some value)
      (hset : record.set registry field value = .ok changed) : Yields registry workspace changed
  | taken {record : Record} {typeId : TypeId} {values : List Value} (h : workspace.Holds record)
      (hmem : Value.component typeId values ∈ record.values) :
      Yields registry workspace ⟨typeId, values⟩

section Holding

variable {workspace : Workspace} {record other : Record} {scene : Scene}

theorem holds_of_hold (h : (workspace.hold record).Holds other) :
    workspace.Holds other ∨ other = record := by
  rcases h with h | h
  · rcases List.mem_append.1 h with h | h
    · exact .inl (.inl h)
    · exact .inr (List.mem_singleton.1 h)
  · exact .inl (.inr h)

theorem holds_of_holdScene (h : (workspace.holdScene scene).Holds other) :
    workspace.Holds other ∨ other ∈ scene := by
  rcases h with h | ⟨found, h, hmem⟩
  · exact .inl (.inl h)
  · rcases List.mem_append.1 h with h | h
    · exact .inl (.inr ⟨found, h, hmem⟩)
    · exact .inr (List.mem_singleton.1 h ▸ hmem)

theorem holds_of_replace {slot : Nat} (h : (workspace.replace slot record).Holds other) :
    workspace.Holds other ∨ other = record := by
  rcases h with h | h
  · rcases List.mem_or_eq_of_mem_set h with h | rfl
    · exact .inl (.inl h)
    · exact .inr rfl
  · exact .inl (.inr h)

theorem holds_of_replaceScene {place : Nat} (h : (workspace.replaceScene place scene).Holds other) :
    workspace.Holds other ∨ other ∈ scene := by
  rcases h with h | ⟨found, h, hmem⟩
  · exact .inl (.inl h)
  · rcases List.mem_or_eq_of_mem_set h with h | rfl
    · exact .inl (.inr ⟨found, h, hmem⟩)
    · exact .inr hmem

theorem holds_of_getElem? {slot : Nat} (h : workspace.records[slot]? = some record) :
    workspace.Holds record :=
  .inl (List.mem_of_getElem? h)

theorem holds_of_mem {place : Nat} (h : workspace.scenes[place]? = some scene)
    (hmem : record ∈ scene) : workspace.Holds record :=
  .inr ⟨scene, List.mem_of_getElem? h, hmem⟩

end Holding

section Calls

variable {registry : Registry}

/-- A record that is held refuses the value of an operand for a field. -/
def Refuses (registry : Registry) (workspace : Workspace) (error : SceneError) : Prop :=
  ∃ record field operand value, workspace.Holds record ∧
    workspace.value? operand = some value ∧ record.set registry field value = .error error

/-- The outcome of a call: all that is held afterwards is made in one of the ways.  A failure
changes nothing; if the call sets a field, it names what is not held, or the field is refused. -/
def YieldsAll (registry : Registry) (workspace : Workspace) (call : Call)
    (result : Except Failure Unit × Workspace) : Prop :=
  match result with
  | (.ok _, after) => ∀ record, after.Holds record → workspace.Yields registry record
  | (.error failure, after) => after = workspace ∧
      (call.Sets → ∀ error, failure = .scene error → workspace.Refuses registry error)

theorem yieldsAll_notHeld (registry : Registry) (workspace : Workspace) (call : Call) :
    workspace.YieldsAll registry call (.error .notHeld, workspace) :=
  ⟨rfl, fun _ _ heq => nomatch heq⟩

/-- A call that does not set a field may fail for any reason. -/
theorem yieldsAll_error (registry : Registry) (workspace : Workspace) {call : Call}
    (hcall : ¬call.Sets) (failure : Failure) :
    workspace.YieldsAll registry call (.error failure, workspace) :=
  ⟨rfl, fun hsets => absurd hsets hcall⟩

/-- A call that holds one more record, which can be made. -/
theorem yieldsAll_hold {workspace : Workspace} (call : Call) {record : Record}
    (h : workspace.Yields registry record) :
    workspace.YieldsAll registry call (.ok (), workspace.hold record) := by
  intro other hother
  rcases holds_of_hold hother with hheld | rfl
  · exact .held hheld
  · exact h

/-- A call that holds one more scene, all of whose records can be made. -/
theorem yieldsAll_holdScene {workspace : Workspace} (call : Call) {scene : Scene}
    (h : ∀ record ∈ scene, workspace.Yields registry record) :
    workspace.YieldsAll registry call (.ok (), workspace.holdScene scene) := by
  intro other hother
  rcases holds_of_holdScene hother with hheld | hmem
  · exact .held hheld
  · exact h other hmem

/-- A call that holds the scene of a view. -/
theorem yieldsAll_holdView (hgrounded : registry.Grounded) (workspace : Workspace) {call : Call}
    (hcall : ¬call.Sets) {outcome : Except ImageError View}
    (hregistry : ∀ view, outcome = .ok view → view.registry = registry) :
    workspace.YieldsAll registry call (workspace.holdView outcome) := by
  unfold holdView
  split
  · next scene hscene =>
      obtain ⟨view, hview, hscene⟩ := bind_eq_ok_iff.1 hscene
      obtain rfl := hregistry view hview
      exact yieldsAll_holdScene call fun record hrecord =>
        .fresh (View.formed_of_toScene hgrounded hscene record hrecord)
  · exact yieldsAll_error _ workspace hcall _

/-- A call that sets a field of a record that is held. -/
theorem yieldsAll_set (registry : Registry) {workspace : Workspace} (call : Call) {record : Record}
    (hrecord : workspace.Holds record) {operand : Operand} {value : Value}
    (hvalue : workspace.value? operand = some value) (field : String) {next : Record → Workspace}
    (hnext : ∀ changed other, (next changed).Holds other →
      workspace.Holds other ∨ other = changed) :
    workspace.YieldsAll registry call
      (match record.set registry field value with
      | .ok changed => (.ok (), next changed)
      | .error error => (.error (.scene error), workspace)) := by
  cases hset : record.set registry field value with
  | error error =>
      refine ⟨rfl, fun _ other hother => ?_⟩
      obtain rfl := Failure.scene.inj hother
      exact ⟨record, field, operand, value, hrecord, hvalue, hset⟩
  | ok changed =>
      intro other hother
      rcases hnext changed other hother with hheld | rfl
      · exact .held hheld
      · exact .set hrecord hvalue hset

/-- A call that sets a field of a record of a scene. -/
theorem yieldsAll_setField (registry : Registry) {workspace : Workspace} {place : Nat}
    {scene : Scene} (hscene : workspace.scenes[place]? = some scene) (key : InstanceKey)
    {operand : Operand} {value : Value} (hvalue : workspace.value? operand = some value)
    (field : String) :
    workspace.YieldsAll registry (.setField place key field operand)
      (match scene.setField registry key field value with
      | some (.ok changed) => (.ok (), workspace.replaceScene place changed)
      | some (.error error) => (.error (.scene error), workspace)
      | none => (.error .notHeld, workspace)) := by
  unfold Scene.setField
  cases hrecord : scene[key]? with
  | none => exact yieldsAll_notHeld _ workspace _
  | some record =>
      have hnext : ∀ changed other,
          (workspace.replaceScene place (scene.set key changed)).Holds other →
            workspace.Holds other ∨ other = changed := by
        intro changed other hother
        rcases holds_of_replaceScene hother with hheld | hmem
        · exact .inl hheld
        · exact (List.mem_or_eq_of_mem_set hmem).imp_left (holds_of_mem hscene)
      have hyields := yieldsAll_set registry (.setField place key field operand)
        (holds_of_mem hscene (List.mem_of_getElem? hrecord)) hvalue field hnext
      rw [Option.map_some]
      cases hset : record.set registry field value with
      | error error =>
          rw [hset] at hyields
          exact hyields
      | ok changed =>
          rw [hset] at hyields
          exact hyields

/-- **All that a call can make**, one case for each call. -/
theorem yields_call (hgrounded : registry.Grounded) (workspace : Workspace) (call : Call) :
    workspace.YieldsAll registry call (workspace.call registry call) := by
  cases call with
  | new name =>
      rw [Workspace.call, Record.new]
      cases hnamed : registry.named? name with
      | none => exact yieldsAll_error _ workspace id _
      | some layout =>
          obtain ⟨position, hlayout⟩ := Registry.exists_layout?_of_named? hnamed
          exact yieldsAll_hold _ (.fresh (Registry.formed_zeroRecord hgrounded hlayout))
  | set slot field operand =>
      rw [Workspace.call]
      split
      · next record value hrecord hvalue =>
          exact yieldsAll_set registry _ (holds_of_getElem? hrecord) hvalue field
            fun _ _ => holds_of_replace
      · exact yieldsAll_notHeld _ workspace _
  | build slot field operand =>
      rw [Workspace.call]
      split
      · next record value hrecord hvalue =>
          exact yieldsAll_set registry _ (holds_of_getElem? hrecord) hvalue field
            fun _ _ => holds_of_hold
      · exact yieldsAll_notHeld _ workspace _
  | take slot field =>
      rw [Workspace.call]
      split
      · next typeId values hfound =>
          obtain ⟨record, hrecord, hget⟩ := Option.bind_eq_some_iff.1 hfound
          obtain ⟨layout, -, hget⟩ := Option.bind_eq_some_iff.1 hget
          obtain ⟨index, -, hvalue⟩ := Option.bind_eq_some_iff.1 hget
          exact yieldsAll_hold _
            (.taken (holds_of_getElem? hrecord) (List.mem_of_getElem? hvalue))
      · exact yieldsAll_error _ workspace id _
  | empty => exact yieldsAll_holdScene _ fun _ hmem => absurd hmem List.not_mem_nil
  | push place slot =>
      rw [Workspace.call]
      split
      · next scene record hscene hrecord =>
          intro other hother
          rcases holds_of_replaceScene hother with hheld | hmem
          · exact .held hheld
          · rcases List.mem_append.1 hmem with hmem | hmem
            · exact .held (holds_of_mem hscene hmem)
            · exact .held (List.mem_singleton.1 hmem ▸ holds_of_getElem? hrecord)
      · exact yieldsAll_error _ workspace id _
  | setField place key field operand =>
      rw [Workspace.call]
      split
      · next scene value hscene hvalue =>
          exact yieldsAll_setField registry hscene key hvalue field
      · exact yieldsAll_notHeld _ workspace _
  | pick place key =>
      rw [Workspace.call]
      split
      · next record hfound =>
          obtain ⟨scene, hscene, hrecord⟩ := Option.bind_eq_some_iff.1 hfound
          exact yieldsAll_hold _ (.held (holds_of_mem hscene (List.mem_of_getElem? hrecord)))
      · exact yieldsAll_error _ workspace id _
  | read text =>
      rw [Workspace.call]
      split
      · next scene hread =>
          exact yieldsAll_holdScene _ fun record hrecord =>
            .fresh (Scene.formed_of_read hgrounded hread record hrecord)
      · exact yieldsAll_error _ workspace id _
  | describe base bytes =>
      exact yieldsAll_holdView hgrounded workspace id fun _ => View.registry_of_ofBytes
  | resolve address bytes =>
      exact yieldsAll_holdView hgrounded workspace id fun _ => View.registry_of_resolve

end Calls

/-! ### What a call keeps -/

/-- All records and scenes that are held are well formed. -/
structure Formed (registry : Registry) (workspace : Workspace) : Prop where
  records : ∀ record ∈ workspace.records, record.Formed registry
  scenes : ∀ scene ∈ workspace.scenes, scene.Formed registry

variable {registry : Registry} {workspace : Workspace}

theorem formed_iff :
    workspace.Formed registry ↔ ∀ record, workspace.Holds record → record.Formed registry := by
  constructor
  · rintro ⟨hrecords, hscenes⟩ record (hrecord | ⟨scene, hscene, hmem⟩)
    · exact hrecords record hrecord
    · exact hscenes scene hscene record hmem
  · exact fun h => ⟨fun record hrecord => h record (.inl hrecord),
      fun scene hscene record hmem => h record (.inr ⟨scene, hscene, hmem⟩)⟩

/-- What a call keeps: if it goes through, all that is held is well formed, and if it fails, the
workspace is left as it was.  A field that is set has a value to be replaced. -/
def Keeps (registry : Registry) (workspace : Workspace) (call : Call)
    (result : Except Failure Unit × Workspace) : Prop :=
  match result with
  | (.ok _, after) => after.Formed registry
  | (.error failure, after) => after = workspace ∧
      (call.Sets → ∀ owner name, failure ≠ .scene (.missingValue owner name))

namespace Formed

theorem whole (h : workspace.Formed registry) {operand : Operand} {value : Value}
    (hvalue : workspace.value? operand = some value) : value.Whole registry := by
  cases operand with
  | scalar number =>
      cases hvalue
      trivial
  | text content =>
      cases hvalue
      trivial
  | ref key =>
      cases hvalue
      trivial
  | record slot =>
      obtain ⟨record, hrecord, rfl⟩ := Option.map_eq_some_iff.1 hvalue
      exact h.records record (List.mem_of_getElem? hrecord)

/-- What a call makes of well-formed records is well formed, one case for each way. -/
theorem yields (h : workspace.Formed registry) {record : Record}
    (hyields : workspace.Yields registry record) : record.Formed registry := by
  have hholds := formed_iff.1 h
  cases hyields with
  | held hheld => exact hholds record hheld
  | fresh hformed => exact hformed
  | @set old _ field _ _ hheld hvalue hset =>
      have houtcome := (hholds old hheld).set_outcome field (h.whole hvalue)
      rw [hset] at houtcome
      exact houtcome
  | taken hheld hmem =>
      obtain ⟨layout, -, hvalues⟩ := hholds _ hheld
      obtain ⟨placed, -, hformed⟩ := exists_mem_of_forall₂ (Value.allFormed_iff.1 hvalues) hmem
      exact hformed.whole

/-- Well-formed records do not lack a value. -/
theorem refuses (h : workspace.Formed registry) {owner name : String} :
    ¬workspace.Refuses registry (.missingValue owner name) := by
  rintro ⟨record, field, operand, value, hheld, hvalue, hset⟩
  have houtcome := (formed_iff.1 h record hheld).set_outcome field (h.whole hvalue)
  rw [hset] at houtcome
  exact houtcome owner name rfl

/-- **Each call keeps what is held well formed**, and changes nothing if it fails. -/
theorem keeps_call (h : workspace.Formed registry) (hgrounded : registry.Grounded) (call : Call) :
    workspace.Keeps registry call (workspace.call registry call) := by
  have hyields := yields_call hgrounded workspace call
  rcases hcall : workspace.call registry call with ⟨failure | _, after⟩
  · rw [hcall] at hyields
    refine ⟨hyields.1, fun hsets owner name hfailure => ?_⟩
    exact h.refuses (hyields.2 hsets _ hfailure)
  · rw [hcall] at hyields
    exact formed_iff.2 fun record hrecord => h.yields (hyields record hrecord)

theorem after_call (h : workspace.Formed registry) (hgrounded : registry.Grounded) (call : Call) :
    (workspace.call registry call).2.Formed registry := by
  have hkeeps := h.keeps_call hgrounded call
  unfold Keeps at hkeeps
  split at hkeeps
  · next hcall => exact hcall ▸ hkeeps
  · next hcall => exact hcall ▸ hkeeps.1 ▸ h

end Formed

/-! ### Runs -/

/-- One call of a run: the workspace before it, the answer, and the workspace after it. -/
structure Step where
  before : Workspace
  call : Call
  answer : Except Failure Unit
  after : Workspace

/-- The calls of a run, one after the other. -/
def run (registry : Registry) (workspace : Workspace) : List Call → List Step
  | [] => []
  | call :: rest =>
      let (answer, after) := workspace.call registry call
      ⟨workspace, call, answer, after⟩ :: after.run registry rest

/-- What holds of a run. -/
structure Kept (registry : Registry) (steps : List Step) : Prop where
  /-- All records and scenes that are held are well formed, before each call and after it. -/
  formed : ∀ step ∈ steps, step.before.Formed registry ∧ step.after.Formed registry
  /-- A call that fails leaves all of them as they were. -/
  unchanged : ∀ step ∈ steps, ∀ failure, step.answer = .error failure → step.after = step.before
  /-- A field that is set has a value to be replaced. -/
  valued : ∀ step ∈ steps, step.call.Sets → ∀ owner name,
    step.answer ≠ .error (.scene (.missingValue owner name))

/-- What is held stays well formed over a run. -/
theorem Formed.kept_run (h : workspace.Formed registry) (hgrounded : registry.Grounded)
    (calls : List Call) : Kept registry (workspace.run registry calls) := by
  induction calls generalizing workspace with
  | nil => exact ⟨by simp [run], by simp [run], by simp [run]⟩
  | cons call rest ih =>
      have hkeeps := h.keeps_call hgrounded call
      have hafter := h.after_call hgrounded call
      have hrest := ih hafter
      rcases hcall : workspace.call registry call with ⟨answer, after⟩
      rw [hcall] at hkeeps hafter hrest
      rw [run, hcall]
      refine ⟨List.forall_mem_cons.2 ⟨⟨h, hafter⟩, hrest.formed⟩,
        List.forall_mem_cons.2 ⟨?_, hrest.unchanged⟩, List.forall_mem_cons.2 ⟨?_, hrest.valued⟩⟩
      · rintro failure rfl
        exact hkeeps.1
      · rintro hsets owner name rfl
        exact hkeeps.2 hsets owner name rfl

/-- **In every run all records and scenes that are held are well formed**, if the run begins with
nothing and all its calls are made with one registry of a schema.  No call that fails changes
anything, and the recursion that fills new records ends for every type. -/
theorem run_kept {schema : Schema} {config : LayoutConfig} {registry : Registry}
    (hbuild : Registry.build schema config = .ok registry) (calls : List Call) :
    Kept registry (run registry ⟨[], []⟩ calls) ∧
      ∀ layout ∈ registry.types, ∀ values, registry.Zeros layout.fields values ↔
        values = (registry.zeroRecord layout).values := by
  have hgrounded := Registry.grounded_of_build hbuild
  have hempty : Formed registry ⟨[], []⟩ :=
    ⟨fun _ h => absurd h List.not_mem_nil, fun _ h => absurd h List.not_mem_nil⟩
  exact ⟨hempty.kept_run hgrounded calls,
    fun _ hlayout _ => Registry.zeros_iff hgrounded hlayout⟩

end Workspace

namespace Sample

/-- A tag is named and embedded in a node, which is pushed to a scene and refers to itself there; a
field of another kind is refused, and the sample image is read. -/
def calls : List Workspace.Call :=
  [.new "Tag", .set 0 "label" (.text (some "a")), .new "Node", .set 1 "tag" (.record 0),
    .set 1 "w" (.record 0), .empty, .push 0 1, .setField 0 0 "next" (.ref (some 0)),
    .describe 0 image]

end Sample

/-- All but one of the sample calls go through, and the records that are held are well formed. -/
theorem Workspace.run_kept_sample :
    Registry.build Sample.schema ⟨16⟩ = .ok Sample.registry ∧
      ((run Sample.registry ⟨[], []⟩ Sample.calls).map fun step => step.answer.isOk) =
        [true, true, true, true, false, true, true, true, true] ∧
      (run Sample.registry ⟨[], []⟩ Sample.calls).getLast?.map (fun step => step.after.records) =
        some [⟨1, [.text (some "a")]⟩,
          ⟨0, [.scalar (.zero .u16), .component 1 [.text (some "a")], .ref none]⟩] ∧
      Kept Sample.registry (run Sample.registry ⟨[], []⟩ Sample.calls) ∧
      ∀ layout ∈ Sample.registry.types, ∀ values,
        Sample.registry.Zeros layout.fields values ↔
          values = (Sample.registry.zeroRecord layout).values :=
  ⟨Sample.build_schema, by cbv, by cbv, run_kept Sample.build_schema Sample.calls⟩

end ScenePack
