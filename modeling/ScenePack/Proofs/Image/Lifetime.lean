/-
**The lifetime of a buffer.**

A buffer is resolved and viewed any number of times, with any registries.  Its bytes are those it
was made from until a relocation succeeds, and the relocated ones from then on; no call adds the
base twice.  This needs nothing of the registries: a relocation that fails has changed no byte, and
one that succeeds yields a view.

Main definitions:

* `Buffer.Call`, `Buffer.call` — the calls on a buffer, and what they answer;
* `Buffer.Step`, `Buffer.run` — the calls of a run, one after the other;
* `Buffer.FixedUpOnce` — what holds of a run.

Main results:

* `slots_inside_of_scan` — the words that a scan finds lie inside, whatever the registry;
* `Buffer.resolve_cases` — **a buffer is left alone or is relocated as a whole**;
* `Buffer.run_fixedUpOnce` — **in every run a buffer is fixed up at most once**.
-/

import ScenePack.Image.Buffer
import ScenePack.Proofs.Image.Accepted
import ScenePack.Proofs.Image.Patch

set_option relaxedAutoImplicit false
set_option autoImplicit false

namespace ScenePack

/-! ### Relocation under any registry -/

theorem le_of_checkSlot {registry : Registry} {bytes : Bytes} {base position : Nat}
    {spans : List Span} {entries : List Entry} {entry : Entry} {slot : PointerSlot}
    (h : checkSlot registry bytes base spans entries entry slot = .ok (some position)) :
    position + Address.width ≤ bytes.length := by
  obtain ⟨value, hvalue, h⟩ := bind_eq_ok_iff.1 h
  have hinside := Bytes.le_of_readSlot hvalue
  -- whatever the pointer leads to, what is reported is its own position
  suffices hposition : position = entry.offset + slot.offset by rwa [hposition]
  split at h
  · cases h
  obtain ⟨target, -, h⟩ := bind_eq_ok_iff.1 h
  split at h
  · split at h
    · cases h
    · obtain ⟨_, -, hok⟩ := bind_eq_ok_iff.1 h
      exact (Option.some_inj.1 (Except.ok.inj hok)).symm
  · split at h
    · cases h
    · split at h
      · exact (Option.some_inj.1 (Except.ok.inj h)).symm
      · cases h

/-- **The words that a scan finds lie inside**, whatever the registry. -/
theorem slots_inside_of_scan {registry : Registry} {base : Nat} {bytes : Bytes} {found : Scan}
    (h : scan registry base bytes = .ok found) :
    Header.size ≤ bytes.length ∧ ∀ slot ∈ found.slots, slot + Address.width ≤ bytes.length := by
  obtain ⟨header, hheader, h⟩ := bind_eq_ok_iff.1 h
  obtain ⟨rangesAt, -, h⟩ := bind_eq_ok_iff.1 h
  obtain ⟨directoryAt, hdirectoryAt, h⟩ := bind_eq_ok_iff.1 h
  obtain ⟨⟨total, entries⟩, -, h⟩ := bind_eq_ok_iff.1 h
  dsimp only at h
  split at h
  · cases h
  obtain ⟨spans, -, h⟩ := bind_eq_ok_iff.1 h
  obtain ⟨results, hresults, hok⟩ := bind_eq_ok_iff.1 h
  cases hok
  have hsize := Bytes.le_of_readHeader hheader
  refine ⟨hsize, fun slot hslot => ?_⟩
  rcases List.mem_append.1 hslot with hslot | hslot
  · rcases List.mem_cons.1 hslot with rfl | hslot
    · exact Nat.le_trans (by decide) hsize
    rcases List.mem_cons.1 hslot with rfl | hslot
    · exact Nat.le_trans (by decide) hsize
    obtain ⟨index, hindex, rfl⟩ := List.mem_map.1 hslot
    have hinside := (region_eq_ok_iff.1 hdirectoryAt).2.1
    have : (index + 1) * Address.width ≤ header.count * Address.width :=
      Nat.mul_le_mul_right _ (List.mem_range.1 hindex)
    rw [Nat.succ_mul] at this
    omega
  · obtain ⟨result, hresult, hposition⟩ := List.mem_filterMap.1 hslot
    obtain rfl : result = some slot := hposition
    obtain ⟨place, -, hplace⟩ := exists_mem_of_forall₂ (mapM_eq_ok_iff.1 hresults) hresult
    exact le_of_checkSlot hplace

/-- **A relocation leaves the bytes as they are, or goes through**, whatever the registry: no patch
fails in between, and there is a header to view in the end. -/
theorem relocateScan_whole (registry : Registry) (base : Nat) (bytes : Bytes) :
    (∃ error, relocateScan registry base bytes = (.error error, bytes)) ∨
      ∃ found after, relocateScan registry base bytes = (.ok found, after) ∧
        ∃ header, after.readHeader = .ok header := by
  cases hscan : scan registry 0 bytes with
  | error error => exact Or.inl ⟨error, by rw [relocateScan, hscan]⟩
  | ok found =>
      obtain ⟨hsize, hinside⟩ := slots_inside_of_scan hscan
      by_cases hspace : Address.space ≤ base + bytes.length
      · refine Or.inl ⟨.addressOverflow base, ?_⟩
        rw [relocateScan, hscan]
        dsimp only
        rw [if_pos hspace]
      · obtain ⟨after, hafter⟩ := exists_patch base hinside
        have hlength := length_patch base found.slots bytes
        rw [hafter] at hlength
        refine Or.inr ⟨found, after, ?_, Bytes.exists_readHeader (hlength ▸ hsize)⟩
        rw [relocateScan, hscan]
        dsimp only
        rw [if_neg hspace, hafter]
        rfl

namespace Buffer

/-! ### One call -/

/-- A call on a buffer: it is resolved, or viewed in its state. -/
inductive Call where
  | resolve (registry : Registry)
  | view (registry : Registry)

/-- What a call answers, and the buffer after it. -/
def call (buffer : Buffer) : Call → Except ImageError View × Buffer
  | .resolve registry => buffer.resolve registry
  | .view registry => (buffer.view registry, buffer)

variable {registry : Registry} {buffer : Buffer}

theorem resolve_of_resolved {base : Nat} (h : buffer.state = .resolved base) :
    buffer.resolve registry = (.error .alreadyResolved, buffer) := by
  rw [resolve, h]

/-- **A buffer is left alone or is relocated as a whole**: it can be resolved exactly if it holds
positions and its bytes can be relocated to its address. -/
theorem resolve_cases (h : buffer.state = .raw) :
    (∃ error, relocate registry buffer.address buffer.bytes = (.error error, buffer.bytes) ∧
      buffer.resolve registry = (.error error, buffer)) ∨
    ∃ count after view, relocate registry buffer.address buffer.bytes = (.ok count, after) ∧
      buffer.resolve registry = (.ok view, ⟨buffer.address, after, .resolved buffer.address⟩) := by
  obtain ⟨address, bytes, state⟩ := buffer
  obtain rfl : state = .raw := h
  simp only [relocate, resolve]
  rcases relocateScan_whole registry address bytes with
    ⟨error, herror⟩ | ⟨found, after, hok, header, hheader⟩
  · exact Or.inl ⟨error, by rw [herror]; rfl, by rw [herror]⟩
  · refine Or.inr ⟨found.slots.length, after,
      ⟨registry, address, after, header, found.rangesAt, found.directoryAt⟩, by rw [hok]; rfl, ?_⟩
    have hview : View.ofScan registry address after found =
        .ok ⟨registry, address, after, header, found.rangesAt, found.directoryAt⟩ := by
      rw [View.ofScan, hheader]
      rfl
    rw [hok]
    dsimp only
    rw [hview]

/-! ### Runs -/

/-- One call of a run: the buffer before it, the answer, and the buffer after it. -/
structure Step where
  before : Buffer
  call : Call
  answer : Except ImageError View
  after : Buffer

namespace Step

/-- Whether the call resolves the buffer. -/
def Resolves (step : Step) : Prop :=
  ∃ registry view, step.call = .resolve registry ∧ step.answer = .ok view

end Step

/-- The calls of a run, one after the other. -/
def run (buffer : Buffer) : List Call → List Step
  | [] => []
  | call :: rest =>
      let (answer, after) := buffer.call call
      ⟨buffer, call, answer, after⟩ :: after.run rest

/-- A run on a buffer at `address` that was made of `bytes`. -/
structure FixedUpOnce (address : Nat) (bytes : Bytes) (steps : List Step) : Prop where
  /-- A buffer that holds positions holds its first bytes. -/
  raw : ∀ step ∈ steps, (step.before.state = .raw → step.before.bytes = bytes) ∧
    (step.after.state = .raw → step.after.bytes = bytes)
  /-- While it does, it is resolved by a call exactly if its first bytes can be relocated. -/
  resolves_iff : ∀ step ∈ steps, ∀ registry, step.before.state = .raw →
    step.call = .resolve registry →
      (step.Resolves ↔ ∃ count after, relocate registry address bytes = (.ok count, after))
  /-- A view, and a call that fails, leaves the buffer as it is. -/
  unchanged : ∀ step ∈ steps, ¬step.Resolves → step.after = step.before
  /-- At most one call resolves the buffer. -/
  once : steps.Pairwise fun first second => ¬(first.Resolves ∧ second.Resolves)
  /-- The call that resolves the buffer relocates its first bytes to its address. -/
  relocated : ∀ step ∈ steps, ∀ registry view, step.call = .resolve registry →
    step.answer = .ok view → ∃ count, relocate registry address bytes =
      (.ok count, step.after.bytes) ∧ step.after.state = .resolved address
  /-- Calls after it do not change the buffer, and do not resolve it again. -/
  final : steps.Pairwise fun first second => first.Resolves →
    second.before = first.after ∧ second.after = first.after ∧
      ∀ registry, second.call = .resolve registry → second.answer = .error .alreadyResolved

/-- A view, and a call that fails, leaves the buffer as it is. -/
theorem call_unchanged {call : Call} {answer : Except ImageError View} {after : Buffer}
    (h : buffer.call call = (answer, after))
    (hresolves : ¬Step.Resolves ⟨buffer, call, answer, after⟩) : after = buffer := by
  cases call with
  | view registry => exact (Prod.mk.inj h).2.symm
  | resolve registry =>
      have hresolve : buffer.resolve registry = (answer, after) := h
      cases hstate : buffer.state with
      | resolved base =>
          rw [resolve_of_resolved hstate] at hresolve
          exact (Prod.mk.inj hresolve).2.symm
      | raw =>
          rcases @resolve_cases registry buffer hstate with
            ⟨error, -, herror⟩ | ⟨count, next, view, -, hok⟩
          · rw [herror] at hresolve
            exact (Prod.mk.inj hresolve).2.symm
          · rw [hok] at hresolve
            exact absurd ⟨registry, view, rfl, (Prod.mk.inj hresolve).1.symm⟩ hresolves

theorem run_of_resolved {base : Nat} (h : buffer.state = .resolved base) (calls : List Call) :
    ∀ step ∈ buffer.run calls, step.before = buffer ∧ step.after = buffer ∧ ¬step.Resolves ∧
      ∀ registry, step.call = .resolve registry → step.answer = .error .alreadyResolved := by
  induction calls with
  | nil => exact fun _ hstep => absurd hstep List.not_mem_nil
  | cons call rest ih =>
      cases call with
      | view registry =>
          refine List.forall_mem_cons.2 ⟨⟨rfl, rfl, ?_, fun _ hcall => nomatch hcall⟩, ih⟩
          rintro ⟨_, _, hcall, -⟩
          cases hcall
      | resolve registry =>
          rw [run, Buffer.call, resolve_of_resolved h]
          refine List.forall_mem_cons.2 ⟨⟨rfl, rfl, ?_, fun _ _ => rfl⟩, ih⟩
          rintro ⟨_, _, -, hanswer⟩
          cases hanswer

/-- A run that begins with a call that leaves the buffer as it is. -/
theorem FixedUpOnce.cons_of_unchanged {address : Nat} {bytes : Bytes} {call : Call}
    {answer : Except ImageError View} {steps : List Step} (h : FixedUpOnce address bytes steps)
    (hcall : (ofBytes address bytes).call call = (answer, ofBytes address bytes))
    (hresolves : ¬Step.Resolves ⟨ofBytes address bytes, call, answer, ofBytes address bytes⟩) :
    FixedUpOnce address bytes
      (⟨ofBytes address bytes, call, answer, ofBytes address bytes⟩ :: steps) where
  raw := List.forall_mem_cons.2 ⟨⟨fun _ => rfl, fun _ => rfl⟩, h.raw⟩
  resolves_iff := by
    refine List.forall_mem_cons.2 ⟨?_, h.resolves_iff⟩
    rintro registry - rfl
    refine iff_of_false hresolves ?_
    rintro ⟨count, after, hrelocate⟩
    rcases @resolve_cases registry (ofBytes address bytes) rfl with
      ⟨error, herror, -⟩ | ⟨_, _, view, -, hok⟩
    · cases herror.symm.trans hrelocate
    · exact hresolves ⟨registry, view, rfl, (congrArg Prod.fst (hcall.symm.trans hok))⟩
  unchanged := List.forall_mem_cons.2 ⟨fun _ => rfl, h.unchanged⟩
  once := List.pairwise_cons.2 ⟨fun _ _ hboth => hresolves hboth.1, h.once⟩
  relocated := by
    refine List.forall_mem_cons.2 ⟨?_, h.relocated⟩
    intro registry view hview hanswer
    exact absurd ⟨registry, view, hview, hanswer⟩ hresolves
  final := List.pairwise_cons.2 ⟨fun _ _ hfirst => absurd hfirst hresolves, h.final⟩

/-- A run that begins with a call that resolves the buffer. -/
theorem FixedUpOnce.cons_of_relocate {address count : Nat} {bytes after : Bytes} {view : View}
    (hrelocate : relocate registry address bytes = (.ok count, after)) (calls : List Call) :
    FixedUpOnce address bytes
      (⟨ofBytes address bytes, .resolve registry, .ok view, ⟨address, after, .resolved address⟩⟩ ::
        run ⟨address, after, .resolved address⟩ calls) := by
  have hlater := @run_of_resolved ⟨address, after, .resolved address⟩ address rfl calls
  have hresolves : Step.Resolves
      ⟨ofBytes address bytes, .resolve registry, .ok view, ⟨address, after, .resolved address⟩⟩ :=
    ⟨registry, view, rfl, rfl⟩
  constructor
  · refine List.forall_mem_cons.2 ⟨⟨fun _ => rfl, nofun⟩, ?_⟩
    intro step hstep
    obtain ⟨hbefore, hafter, -, -⟩ := hlater step hstep
    rw [hbefore, hafter]
    exact ⟨nofun, nofun⟩
  · refine List.forall_mem_cons.2 ⟨?_, ?_⟩
    · rintro _ - ⟨⟩
      exact iff_of_true hresolves ⟨count, after, hrelocate⟩
    · intro step hstep registry hraw
      rw [(hlater step hstep).1] at hraw
      cases hraw
  · refine List.forall_mem_cons.2 ⟨fun hnot => absurd hresolves hnot, ?_⟩
    intro step hstep _
    obtain ⟨hbefore, hafter, -, -⟩ := hlater step hstep
    rw [hbefore, hafter]
  · refine List.pairwise_cons.2 ⟨fun step hstep hboth => (hlater step hstep).2.2.1 hboth.2, ?_⟩
    exact List.pairwise_of_forall_mem_list fun step hstep _ _ hboth =>
      (hlater step hstep).2.2.1 hboth.1
  · refine List.forall_mem_cons.2 ⟨?_, ?_⟩
    · rintro _ _ ⟨⟩ -
      exact ⟨count, hrelocate, rfl⟩
    · intro step hstep registry view hcall hanswer
      exact absurd ⟨registry, view, hcall, hanswer⟩ (hlater step hstep).2.2.1
  · refine List.pairwise_cons.2 ⟨?_, ?_⟩
    · intro step hstep _
      obtain ⟨hbefore, hafter, -, hagain⟩ := hlater step hstep
      exact ⟨hbefore, hafter, hagain⟩
    · exact List.pairwise_of_forall_mem_list fun step hstep _ _ hfirst =>
        absurd hfirst (hlater step hstep).2.2.1

/-- **In every run a buffer is fixed up at most once**: until a call resolves it, it holds the bytes
it was made of, and from then on their relocation to its address; no later call resolves it again,
with any registry, and no call that fails changes it. -/
theorem run_fixedUpOnce (address : Nat) (bytes : Bytes) (calls : List Call) :
    FixedUpOnce address bytes ((ofBytes address bytes).run calls) := by
  induction calls with
  | nil => exact ⟨by simp [run], by simp [run], by simp [run], .nil, by simp [run], .nil⟩
  | cons call rest ih =>
      rcases hcall : (ofBytes address bytes).call call with ⟨answer, after⟩
      rw [run, hcall]
      by_cases hresolves : Step.Resolves ⟨ofBytes address bytes, call, answer, after⟩
      · obtain ⟨registry, view, rfl, rfl⟩ := hresolves
        rcases @resolve_cases registry (ofBytes address bytes) rfl with
          ⟨error, -, herror⟩ | ⟨count, next, shown, hrelocate, hok⟩
        · cases herror.symm.trans hcall
        · cases hok.symm.trans hcall
          exact .cons_of_relocate hrelocate rest
      · obtain rfl := call_unchanged hcall hresolves
        exact ih.cons_of_unchanged hcall hresolves

end Buffer

end ScenePack
