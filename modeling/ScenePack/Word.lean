/-
**Words and addresses.**

A number is stored in a fixed count of bytes, the least significant first.  Addresses are 64 bits
wide: a computation whose sums of addresses are checked stops at one that outgrows the address
space.  Positions are rounded up to a multiple of an alignment.

Main definitions:

* `Word.limit` — the numbers of a width are those below its limit;
* `Word.encode`, `Word.decode` — a number as little-endian bytes, and back;
* `Failure` — the ways in which a computation fails;
* `Address.space`, `Address.sum`, `Address.wrap` — the size of the address space, sums that are
  checked against it, and reduction modulo it;
* `alignUp`, `alignUpBy` — the rounding of a position, on unbounded numbers and with given sums.

Main results:

* `Word.decode_encode`, `Word.encode_decode` — on numbers that fit, reading undoes writing, and on
  byte strings of the right length writing undoes reading;
* `alignUpBy_ok` — sums that never fail round as unbounded numbers do.
-/

set_option relaxedAutoImplicit false
set_option autoImplicit false

namespace ScenePack

/-- A byte string. -/
abbrev Bytes := List UInt8

namespace Word

/-! ### Little-endian numbers -/

/-- The count of numbers that a width in bytes can hold. -/
def limit : (width : Nat) → Nat
  | 0 => 1
  | width + 1 => 256 * limit width

theorem limit_pos (width : Nat) : 0 < limit width := by
  induction width with
  | zero => decide
  | succ width ih => exact Nat.mul_pos (by decide) ih

/-- The `width` low bytes of `value`, the least significant first. -/
def encode : (width value : Nat) → Bytes
  | 0, _ => []
  | width + 1, value => UInt8.ofNat value :: encode width (value / 256)

/-- The number that a little-endian byte string stands for. -/
def decode : Bytes → Nat
  | [] => 0
  | byte :: rest => byte.toNat + 256 * decode rest

@[simp] theorem length_encode (width value : Nat) : (encode width value).length = width := by
  induction width generalizing value with
  | zero => rfl
  | succ width ih => simp [encode, ih]

/-- Writing keeps the value modulo the range of the width. -/
theorem decode_encode_mod (width value : Nat) :
    decode (encode width value) = value % limit width := by
  induction width generalizing value with
  | zero => simp [encode, decode, limit, Nat.mod_one]
  | succ width ih =>
      have h : (UInt8.ofNat value).toNat = value % 256 := UInt8.toNat_ofNat'
      rw [encode, decode, ih, h, limit, Nat.mod_mul]

/-- **Reading undoes writing** on the numbers that fit. -/
theorem decode_encode {width value : Nat} (h : value < limit width) :
    decode (encode width value) = value := by
  rw [decode_encode_mod, Nat.mod_eq_of_lt h]

theorem decode_lt (bytes : Bytes) : decode bytes < limit bytes.length := by
  induction bytes with
  | nil => decide
  | cons byte rest ih =>
      have h : byte.toNat < 256 := byte.toNat_lt
      rw [decode, List.length_cons, limit]
      omega

/-- **Writing undoes reading** at the width of the byte string. -/
theorem encode_decode (bytes : Bytes) : encode bytes.length (decode bytes) = bytes := by
  induction bytes with
  | nil => rfl
  | cons byte rest ih =>
      have h : byte.toNat < 256 := byte.toNat_lt
      have hdiv : (byte.toNat + 256 * decode rest) / 256 = decode rest := by omega
      have hbyte : UInt8.ofNat (byte.toNat + 256 * decode rest) = byte := by
        apply UInt8.toNat_inj.1
        rw [UInt8.toNat_ofNat']
        omega
      rw [List.length_cons, decode, encode, hdiv, ih, hbyte]

end Word

/-! ### Failures -/

/-- How a computation fails: it reports an error, or it stops, and the program ends without an
answer. -/
inductive Failure (ε : Type) where
  | reported (error : ε)
  | stopped
  deriving DecidableEq

/-- A computation that may report an error, among those that may also stop. -/
def Failure.lift {ε α : Type} : Except ε α → Except (Failure ε) α
  | .ok value => .ok value
  | .error error => .error (.reported error)

@[simp] theorem Failure.lift_eq_ok_iff {ε α : Type} {result : Except ε α} {value : α} :
    lift result = .ok value ↔ result = .ok value := by
  cases result <;> simp [lift]

@[simp] theorem Failure.lift_eq_reported_iff {ε α : Type} {result : Except ε α} {error : ε} :
    lift result = .error (.reported error) ↔ result = .error error := by
  cases result <;> simp [lift]

@[simp] theorem Failure.lift_ne_stopped {ε α : Type} {result : Except ε α} :
    lift result ≠ .error .stopped := by
  cases result <;> simp [lift]

/-! ### Addresses -/

namespace Address

/-- The width of an address in bytes. -/
def width : Nat := 8

/-- The number of addresses. -/
def space : Nat := Word.limit width

/-- A sum of addresses that is checked: the program stops if it is not an address. -/
def sum {ε : Type} (total : Nat) : Except (Failure ε) Nat :=
  if total < space then .ok total else .error .stopped

theorem sum_eq_ok_iff {ε : Type} {total address : Nat} :
    (sum total : Except (Failure ε) Nat) = .ok address ↔ total < space ∧ total = address := by
  unfold sum
  split <;> simp_all [-Nat.not_lt]

theorem sum_of_lt {ε : Type} {total : Nat} (h : total < space) :
    (sum total : Except (Failure ε) Nat) = .ok total := if_pos h

theorem sum_of_le {ε : Type} {total : Nat} (h : space ≤ total) :
    (sum total : Except (Failure ε) Nat) = .error .stopped := if_neg (Nat.not_lt.2 h)

/-- A sum of addresses, reduced to an address. -/
def wrap (sum : Nat) : Nat := sum % space

theorem wrap_lt (sum : Nat) : wrap sum < space := Nat.mod_lt _ (by decide)

theorem wrap_of_lt {sum : Nat} (h : sum < space) : wrap sum = sum := Nat.mod_eq_of_lt h

end Address

/-! ### Rounding -/

/-- The least multiple of `align` that is not before `position`. -/
def alignUp (align position : Nat) : Nat := (position + (align - 1)) / align * align

/-- The same position, computed from `position + align`, which goes through `sum`. -/
def alignUpBy {ε : Type} (sum : Nat → Except (Failure ε) Nat) (align position : Nat) :
    Except (Failure ε) Nat := do
  let total ← sum (position + align)
  .ok ((total - 1) / align * align)

theorem alignUp_dvd (align position : Nat) : align ∣ alignUp align position :=
  ⟨_, Nat.mul_comm _ _⟩

/-- Rounding up never moves a position backwards. -/
theorem le_alignUp {align : Nat} (h : 0 < align) (position : Nat) :
    position ≤ alignUp align position := by
  have hmod := Nat.mod_lt (position + (align - 1)) h
  have hdiv := Nat.div_add_mod' (position + (align - 1)) align
  simp only [alignUp]
  omega

/-- Rounding up moves a position by less than the alignment. -/
theorem alignUp_lt {align : Nat} (h : 0 < align) (position : Nat) :
    alignUp align position < position + align := by
  have hdiv := Nat.div_add_mod' (position + (align - 1)) align
  simp only [alignUp]
  omega

/-- The sum on the way is one more than the one that is divided. -/
theorem alignUp_eq (align position : Nat) :
    (position + align - 1) / align * align = alignUp align position := by
  rcases Nat.eq_zero_or_pos align with rfl | h
  · rw [alignUp, Nat.mul_zero, Nat.mul_zero]
  · rw [alignUp, Nat.add_sub_assoc h]

@[simp] theorem alignUpBy_ok {ε : Type} (align position : Nat) :
    alignUpBy (.ok : Nat → Except (Failure ε) Nat) align position = .ok (alignUp align position) :=
  congrArg Except.ok (alignUp_eq align position)

end ScenePack
