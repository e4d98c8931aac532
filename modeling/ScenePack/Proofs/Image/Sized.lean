/-
**What the first pass finds.**

The first pass over a scene finds its arrangement, if all of it fits: no type has more instances
than a range counts, and the records and the texts end inside the address space.  Otherwise the
program stops.  The sums on the way need no conditions of their own, since each of them is bounded
by where the records end.

Main definitions:

* `Scene.countOf`, `Scene.Countable` — the count of the instances of a type, and scenes whose counts
  take 32 bits;
* `Arrangement.plan` — the plan of an arrangement.

Main results:

* `rangesOf_order`, `rangesOf_overrun` — **the range table counts exactly**, or the program stops;
* `placeRecords_eq` — **every record gets its position**, if all of them end at an address;
* `Scene.place_eq`, `Scene.place_of_overrun` — what the first pass finds, and when it stops.
-/

import ScenePack.Image.Encode
import ScenePack.Proofs.Image.Canonical
import ScenePack.Proofs.Image.Completed
import ScenePack.Proofs.Image.Total
import ScenePack.Proofs.Layout.Fits

set_option relaxedAutoImplicit false
set_option autoImplicit false

namespace ScenePack

/-! ### Counts -/

theorem countRanges_run {id : TypeId} (run : Nat) (rest : List TypeId) {count : Nat}
    (hcount : count < Range.countLimit) :
    countRanges ⟨id, count⟩ (List.replicate run id ++ rest) =
      if count + run < Range.countLimit then countRanges ⟨id, count + run⟩ rest
      else .error .stopped := by
  induction run generalizing count with
  | zero =>
      rw [Nat.add_zero, if_pos hcount]
      rfl
  | succ run ih =>
      rw [List.replicate_succ, List.cons_append, countRanges, if_pos rfl, Range.counted]
      by_cases hnext : count + 1 < Range.countLimit
      · rw [if_pos hnext, Nat.add_comm run, ← Nat.add_assoc]
        exact ih hnext
      · rw [if_neg hnext, if_neg (by omega)]
        rfl

theorem countRanges_of_not_mem {last : Range} {ids : List TypeId} (h : last.typeId ∉ ids) :
    countRanges last ids = (rangesOf ids).map (last :: ·) := by
  cases ids with
  | nil => rfl
  | cons id rest =>
      have hne : last.typeId ≠ id := fun hsame => h (hsame ▸ List.mem_cons_self)
      rw [countRanges, if_neg hne]
      rfl

/-- **A run makes one range**, if it is not too long. -/
theorem rangesOf_run {id : TypeId} {run : Nat} {rest : List TypeId} (h : id ∉ rest) :
    rangesOf (List.replicate (run + 1) id ++ rest) =
      if run + 1 < Range.countLimit then (rangesOf rest).map (⟨id, run + 1⟩ :: ·)
      else .error .stopped := by
  rw [List.replicate_succ, List.cons_append, rangesOf, countRanges_run run rest (by decide),
    Nat.add_comm 1 run, countRanges_of_not_mem h]

section Runs

variable {layouts : List RecordLayout} {count : RecordLayout → Nat}

theorem not_mem_runs {layout : RecordLayout} (h : ∀ other ∈ layouts, layout.id < other.id) :
    layout.id ∉ layouts.flatMap fun other => List.replicate (count other) other.id := by
  intro hmem
  obtain ⟨other, hother, hid⟩ := List.mem_flatMap.1 hmem
  exact Nat.ne_of_lt (h other hother) (List.eq_of_mem_replicate hid)

/-- The runs of types in order make one range for each type that occurs. -/
theorem rangesOf_runs (hdistinct : layouts.Pairwise fun a b => a.id < b.id)
    (hcounts : ∀ layout ∈ layouts, count layout < Range.countLimit) :
    rangesOf (layouts.flatMap fun layout => List.replicate (count layout) layout.id) =
      .ok (layouts.filterMap fun layout =>
        if count layout = 0 then none else some ⟨layout.id, count layout⟩) := by
  induction layouts with
  | nil => rfl
  | cons layout rest ih =>
      obtain ⟨hlayout, hcounts⟩ := List.forall_mem_cons.1 hcounts
      obtain ⟨hfirst, hdistinct⟩ := List.pairwise_cons.1 hdistinct
      rw [List.flatMap_cons, List.filterMap_cons]
      cases hcount : count layout with
      | zero => exact ih hdistinct hcounts
      | succ run =>
          rw [rangesOf_run (not_mem_runs hfirst), if_pos (hcount ▸ hlayout),
            ih hdistinct hcounts]
          rfl

theorem rangesOf_runs_stops (hdistinct : layouts.Pairwise fun a b => a.id < b.id)
    {layout : RecordLayout} (hlayout : layout ∈ layouts)
    (hcount : Range.countLimit ≤ count layout) :
    rangesOf (layouts.flatMap fun layout => List.replicate (count layout) layout.id) =
      .error .stopped := by
  induction layouts with
  | nil => exact absurd hlayout List.not_mem_nil
  | cons first rest ih =>
      obtain ⟨hfirst, hdistinct⟩ := List.pairwise_cons.1 hdistinct
      rw [List.flatMap_cons]
      cases hrun : count first with
      | zero =>
          rcases List.mem_cons.1 hlayout with rfl | hlayout
          · exact absurd (hrun ▸ hcount) (by decide)
          · exact ih hdistinct hlayout
      | succ run =>
          rw [rangesOf_run (not_mem_runs hfirst)]
          split
          · next hlt =>
              rcases List.mem_cons.1 hlayout with rfl | hlayout
              · omega
              · rw [ih hdistinct hlayout]
                rfl
          · rfl

end Runs

namespace Scene

/-- The count of the instances of a type. -/
def countOf (scene : Scene) (id : TypeId) : Nat :=
  (scene.filter fun record => record.typeId = id).length

/-- The count of the instances of each type takes 32 bits. -/
def Countable (scene : Scene) : Prop := ∀ id, scene.countOf id < Range.countLimit

variable {registry : Registry} {config : PackConfig} {scene : Scene}

theorem map_typeId_order (hsound : registry.Sound)
    (hknown : ∀ record ∈ scene, ∃ layout, registry.layout? record.typeId = some layout) :
    scene.order.map (fun entry => entry.1.typeId) =
      registry.types.flatMap fun layout => List.replicate (scene.countOf layout.id) layout.id := by
  have hone : ∀ layout, (scene.storedOf layout).map (fun entry => entry.record.typeId) =
      List.replicate (scene.countOf layout.id) layout.id := by
    intro layout
    refine List.eq_replicate_iff.2 ⟨?_, ?_⟩
    · rw [List.length_map, length_storedOf]
      rfl
    · refine List.forall_mem_map.2 fun entry hentry => ?_
      exact (mem_storedOf_iff.1 hentry).2.1
  rw [← stored_eq_order hsound hknown, List.map_map, stored, List.map_flatMap]
  exact congrArg (registry.types.flatMap ·) (funext hone)

/-- **The range table counts the instances of each type.** -/
theorem rangesOf_order (hsound : registry.Sound)
    (hknown : ∀ record ∈ scene, ∃ layout, registry.layout? record.typeId = some layout)
    (hcounts : scene.Countable) :
    rangesOf (scene.order.map fun entry => entry.1.typeId) = .ok (scene.ranges registry) := by
  have hranges : scene.ranges registry = registry.types.filterMap fun layout =>
      if scene.countOf layout.id = 0 then none
      else some ⟨layout.id, scene.countOf layout.id⟩ := by
    refine congrArg (registry.types.filterMap ·) (funext fun layout => ?_)
    rw [length_storedOf]
    dsimp only
    rw [← countOf, Nat.mod_eq_of_lt (hcounts layout.id)]
  rw [map_typeId_order hsound hknown, hranges]
  exact rangesOf_runs (pairwise_types hsound) fun layout _ => hcounts layout.id

/-- **The program stops at a range that counts too many instances.** -/
theorem rangesOf_overrun (hsound : registry.Sound)
    (hknown : ∀ record ∈ scene, ∃ layout, registry.layout? record.typeId = some layout)
    (hcounts : ¬scene.Countable) :
    rangesOf (scene.order.map fun entry => entry.1.typeId) = .error .stopped := by
  obtain ⟨layout, hlayout, hcount⟩ : ∃ layout ∈ registry.types,
      Range.countLimit ≤ scene.countOf layout.id := by
    by_contra hnone
    refine hcounts (counts_of_types hsound hknown fun layout hlayout => ?_)
    rw [length_storedOf]
    exact Nat.lt_of_not_le fun hle => hnone ⟨layout, hlayout, hle⟩
  rw [map_typeId_order hsound hknown]
  exact rangesOf_runs_stops (pairwise_types hsound) hlayout hcount

end Scene

/-! ### Checked sums -/

section Sums

variable {ε α : Type} {total : Nat} {next : Nat → Except (Failure ε) α}

/-- What stops if a sum is an address stops in any case. -/
theorem sum_bind_stops (h : total < Address.space → next total = .error .stopped) :
    (Address.sum total >>= next) = .error .stopped := by
  unfold Address.sum
  split
  · next hlt => exact h hlt
  · rfl

theorem alignUpBy_bind_stops {align : Nat}
    (h : next (alignUp align total) = .error .stopped) :
    (alignUpBy Address.sum align total >>= next) = .error .stopped := by
  rcases Nat.lt_or_ge (total + align) Address.space with hlt | hge
  · rw [alignUpBy_sum_of_lt hlt]
    exact h
  · rw [alignUpBy_sum_of_le hge]
    rfl

end Sums

/-! ### Positions -/

theorem fetch_eq_ok_iff {α : Type} {table : List α} {index : Nat} {item : α} :
    fetch table index = .ok item ↔ table[index]? = some item := by
  unfold fetch
  split <;> simp_all

theorem knownLayout_eq_ok_iff {registry : Registry} {typeId : TypeId} {layout : RecordLayout} :
    knownLayout registry typeId = .ok layout ↔ registry.layout? typeId = some layout := by
  unfold knownLayout
  split <;> simp_all

/-- The records of an exact registry take at least as many bytes as they are aligned to. -/
theorem Registry.Exact.align_le_size {registry : Registry} (h : registry.Exact)
    {layout : RecordLayout} (hlayout : layout ∈ registry.types) : layout.align ≤ layout.size := by
  obtain ⟨schema, config, hbuild⟩ := h
  exact (regular_of_buildWith (unbounded_of_build hbuild) layout hlayout).align_le

/-- A table with the positions of records by their keys. -/
def fillTable (places : List (StoredRecord × Nat)) (table : List Nat) : List Nat :=
  places.foldl (fun table place => table.set place.1.key place.2) table

theorem getElem?_fillTable_of_not_mem {places : List (StoredRecord × Nat)} {key : InstanceKey}
    (h : key ∉ places.map fun place => place.1.key) (table : List Nat) :
    (fillTable places table)[key]? = table[key]? := by
  induction places generalizing table with
  | nil => rfl
  | cons place rest ih =>
      obtain ⟨hne, hrest⟩ := not_or.1 fun hor => h (List.mem_cons.2 hor)
      exact (ih hrest _).trans (List.getElem?_set_ne (Ne.symm hne))

theorem getElem?_fillTable {places : List (StoredRecord × Nat)}
    (hnodup : (places.map fun place => place.1.key).Nodup) {table : List Nat}
    (hroom : ∀ place ∈ places, place.1.key < table.length) :
    ∀ place ∈ places, (fillTable places table)[place.1.key]? = some place.2 := by
  induction places generalizing table with
  | nil => exact fun _ h => absurd h List.not_mem_nil
  | cons place rest ih =>
      obtain ⟨hfresh, hnodup⟩ := List.nodup_cons.1 hnodup
      obtain ⟨hplace, hroom⟩ := List.forall_mem_cons.1 hroom
      refine List.forall_mem_cons.2 ⟨?_, ih hnodup fun other hother => ?_⟩
      · exact (getElem?_fillTable_of_not_mem hfresh _).trans (List.getElem?_set_self hplace)
      · rw [List.length_set]
        exact hroom other hother

section Positions

variable {registry : Registry} {scene : Scene} {stored : List StoredRecord}

theorem le_endOf (halign : ∀ entry ∈ stored, 0 < entry.layout.align) (start : Nat) :
    start ≤ endOf start (stored.map StoredRecord.layout) :=
  (inOrder_positions halign start).le

/-- **Every record gets its position**, and the table keeps it by the key of the record, if the last
record ends at an address. -/
theorem placeRecords_eq
    (hscene : ∀ entry ∈ stored, scene[entry.key]? = some entry.record)
    (hlayout : ∀ entry ∈ stored, registry.layout? entry.record.typeId = some entry.layout)
    (hregular : ∀ entry ∈ stored,
      0 < entry.layout.align ∧ entry.layout.align ≤ entry.layout.size)
    {table : List Nat} (hroom : ∀ entry ∈ stored, entry.key < table.length) {cursor : Nat}
    (hcursor : cursor < Address.space) :
    placeRecords registry scene cursor (stored.map StoredRecord.key) table =
      (Address.sum (endOf cursor (stored.map StoredRecord.layout))).map fun textAt =>
        (textAt, fillTable (stored.zip (positions cursor (stored.map StoredRecord.layout)))
          table) := by
  induction stored generalizing cursor table with
  | nil =>
      rw [List.map_nil, List.map_nil, endOf, List.foldl_nil, Address.sum_of_lt hcursor]
      rfl
  | cons entry rest ih =>
      obtain ⟨hrecord, hscene⟩ := List.forall_mem_cons.1 hscene
      obtain ⟨hentry, hlayout⟩ := List.forall_mem_cons.1 hlayout
      obtain ⟨⟨hpositive, hsize⟩, hregular⟩ := List.forall_mem_cons.1 hregular
      obtain ⟨hkey, hroom⟩ := List.forall_mem_cons.1 hroom
      let position := alignUp entry.layout.align cursor
      have hposition : cursor ≤ position := le_alignUp hpositive cursor
      have hend : endOf cursor ((entry :: rest).map StoredRecord.layout) =
          endOf (position + entry.layout.size) (rest.map StoredRecord.layout) := rfl
      have hassign : assign table entry.key position = .ok (table.set entry.key position) :=
        if_pos hkey
      have hlater : ∀ other ∈ rest, other.key < (table.set entry.key position).length :=
        fun other hother => by rw [List.length_set]; exact hroom other hother
      have hstep : placeRecords registry scene cursor ((entry :: rest).map StoredRecord.key) table =
          (alignUpBy Address.sum entry.layout.align cursor >>= fun position => do
            let table ← assign table entry.key position
            let cursor ← Address.sum (position + entry.layout.size)
            placeRecords registry scene cursor (rest.map StoredRecord.key) table) := by
        rw [List.map_cons, placeRecords, fetch_eq_ok_iff.2 hrecord]
        change (knownLayout registry entry.record.typeId >>= _) = _
        rw [knownLayout_eq_ok_iff.2 hentry]
        rfl
      rw [hstep, hend]
      by_cases hfits : position + entry.layout.size < Address.space
      · rw [alignUpBy_sum_of_lt (by omega)]
        change (assign table entry.key position >>= _) = _
        rw [hassign]
        change (Address.sum (position + entry.layout.size) >>= _) = _
        rw [Address.sum_of_lt hfits]
        exact ih hscene hlayout hregular hlater hfits
      · -- the record ends behind the address space, and so do those after it
        have hafter := le_endOf (fun other hother => (hregular other hother).1)
          (position + entry.layout.size)
        rw [Address.sum_of_le (by omega)]
        refine alignUpBy_bind_stops ?_
        change (assign table entry.key position >>= _) = _
        rw [hassign]
        exact sum_bind_stops fun hlt => absurd hlt hfits

end Positions

/-! ### Texts -/

/-- Texts are summed up if they end at an address. -/
theorem sumTexts_eq {total : Nat} (htotal : total < Address.space) (texts : List String) :
    sumTexts total texts = Address.sum (total + textsSize texts) := by
  induction texts generalizing total with
  | nil => exact (Address.sum_of_lt htotal).symm
  | cons text rest ih =>
      rw [sumTexts, List.foldlM_cons, textsSize, ← Nat.add_assoc]
      by_cases hnext : total + textSize text < Address.space
      · rw [Address.sum_of_lt hnext]
        exact ih hnext
      · rw [Address.sum_of_le (by omega), Address.sum_of_le (by omega)]
        rfl

/-! ### Plans -/

/-- The plan of an arrangement of a scene. -/
def Arrangement.plan (scene : Scene) (arrangement : Arrangement) : ImagePlan :=
  { keys := arrangement.stored.map StoredRecord.key
    ranges := arrangement.ranges
    table := fillTable arrangement.places (List.replicate scene.length 0)
    directoryAt := arrangement.directoryAt
    textAt := arrangement.textAt
    sizes := arrangement.sizes }

namespace Scene

variable {registry : Registry} {config : PackConfig} {scene : Scene}

theorem ranges_eq_nil (h : scene.stored registry = []) : scene.ranges registry = [] := by
  refine List.filterMap_eq_nil_iff.2 fun layout hlayout => ?_
  rw [List.flatMap_eq_nil_iff.1 h layout hlayout]
  rfl

/-- Each record takes a word of the directory, so the records end behind all that the rounding in
front of the directory goes through. -/
theorem rangesEnd_lt (hsound : registry.Sound) (config : PackConfig)
    (htextAt : (scene.arrange registry config).textAt < Address.space) :
    (scene.arrange registry config).rangesEnd + Address.width < Address.space := by
  have hplaced := scene.placed hsound config
  have hranges := hplaced.rangesEnd_le
  have hrecords := hplaced.inOrder.le
  rw [Arrangement.directoryEnd, hplaced.stored_eq] at hrecords
  cases hstored : scene.stored registry with
  | nil =>
      rw [Arrangement.rangesEnd, hplaced.ranges_eq, ranges_eq_nil hstored]
      decide
  | cons entry rest =>
      rw [hstored, List.length_cons, Nat.succ_mul] at hrecords
      omega

/-- The records of a scene get their positions in the arrangement. -/
theorem placeRecords_order (hexact : registry.Exact)
    (hknown : ∀ record ∈ scene, ∃ layout, registry.layout? record.typeId = some layout)
    {cursor : Nat} (hcursor : cursor < Address.space) :
    placeRecords registry scene cursor (scene.order.map Prod.snd)
        (List.replicate scene.length 0) =
      (Address.sum (endOf cursor ((scene.stored registry).map StoredRecord.layout))).map
        fun textAt => (textAt, fillTable ((scene.stored registry).zip (positions cursor
          ((scene.stored registry).map StoredRecord.layout)))
            (List.replicate scene.length 0)) := by
  have hsound := hexact.sound
  rw [← map_key_stored hsound hknown]
  refine placeRecords_eq (fun entry hentry => (of_mem_stored hsound hentry).2.2)
    (fun entry hentry => (of_mem_stored hsound hentry).1) (fun entry hentry => ?_)
    (fun entry hentry => ?_) hcursor
  · have hlayout := (of_mem_stored hsound hentry).1
    exact ⟨(hsound _ _ hlayout).2.align_pos,
      hexact.align_le_size (Registry.mem_types_of_layout? hlayout)⟩
  · rw [List.length_replicate]
    exact (List.getElem?_eq_some_iff.1 (of_mem_stored hsound hentry).2.2).1

/-- The texts of a scene are summed up to the size of the texts of the arrangement. -/
theorem sumTexts_keptTexts (hsound : registry.Sound) (config : PackConfig)
    (hknown : ∀ record ∈ scene, ∃ layout, registry.layout? record.typeId = some layout) :
    sumTexts 0 (scene.keptTexts config) =
      Address.sum (scene.arrange registry config).sizes.text := by
  rw [sumTexts_eq (by decide), Nat.zero_add, ← storedTexts_eq hsound hknown]
  rfl

/-- **What the first pass finds** in a scene that passes the check and has no more instances of a
type than a range counts: its arrangement, if records and texts end at addresses. -/
theorem place_eq (hexact : registry.Exact) (config : PackConfig)
    (hcheck : scene.check registry = .ok ()) (hcounts : scene.Countable) :
    scene.place registry config =
      if (scene.arrange registry config).textAt < Address.space ∧
        (scene.arrange registry config).sizes.text < Address.space
      then .ok ((scene.arrange registry config).plan scene) else .error .stopped := by
  have hsound := hexact.sound
  have hknown := typed_of_check hcheck
  have hplaced := scene.placed hsound config
  have hdirectory := hplaced.rangesEnd_le
  have hrecords := hplaced.inOrder.le
  have hlength : (scene.stored registry).length = scene.length := length_stored hsound hknown
  rw [Arrangement.directoryEnd, hplaced.stored_eq, hlength] at hrecords
  have hrecordsAt : (scene.arrange registry config).directoryAt + scene.length * Address.width =
      (scene.arrange registry config).recordsAt := by
    rw [← hlength]
    rfl
  rw [place, rangesOf_order hsound hknown hcounts]
  change (Address.sum (scene.arrange registry config).rangesEnd >>= _) = _
  by_cases htextAt : (scene.arrange registry config).textAt < Address.space
  · have hrangesEnd := rangesEnd_lt hsound config htextAt
    rw [Address.sum_of_lt (by omega)]
    change (alignUpBy Address.sum Address.width (scene.arrange registry config).rangesEnd >>= _) = _
    rw [alignUpBy_sum_of_lt hrangesEnd]
    change (Address.sum ((scene.arrange registry config).directoryAt +
      scene.length * Address.width) >>= _) = _
    rw [hrecordsAt, Address.sum_of_lt (by omega)]
    change (placeRecords registry scene (scene.arrange registry config).recordsAt _ _ >>= _) = _
    rw [placeRecords_order hexact hknown (by omega)]
    change ((Address.sum (scene.arrange registry config).textAt).map _ >>= _) = _
    rw [Address.sum_of_lt htextAt]
    change (sumTexts 0 (scene.keptTexts config) >>= _) = _
    rw [sumTexts_keptTexts hsound config hknown, ← map_key_stored hsound hknown]
    by_cases htext : (scene.arrange registry config).sizes.text < Address.space
    · rw [Address.sum_of_lt htext, if_pos ⟨htextAt, htext⟩]
      rfl
    · rw [Address.sum_of_le (Nat.le_of_not_lt htext), if_neg fun h => htext h.2]
      rfl
  · -- the records end behind the address space, so one of the sums up to there stops
    rw [if_neg fun h => htextAt h.1]
    refine sum_bind_stops fun _ => alignUpBy_bind_stops ?_
    change (Address.sum ((scene.arrange registry config).directoryAt +
      scene.length * Address.width) >>= _) = _
    rw [hrecordsAt]
    refine sum_bind_stops fun hlt => ?_
    rw [placeRecords_order hexact hknown hlt]
    change ((Address.sum (scene.arrange registry config).textAt).map _ >>= _) = _
    rw [Address.sum_of_le (Nat.le_of_not_lt htextAt)]
    rfl

/-- **The first pass stops at a type with more instances than a range counts.** -/
theorem place_of_overrun (hsound : registry.Sound) (config : PackConfig)
    (hcheck : scene.check registry = .ok ()) (hcounts : ¬scene.Countable) :
    scene.place registry config = .error .stopped := by
  rw [place, rangesOf_overrun hsound (typed_of_check hcheck) hcounts]
  rfl

end Scene

end ScenePack
