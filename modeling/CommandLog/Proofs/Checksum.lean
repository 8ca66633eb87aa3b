import CommandLog.Checksum
import Mathlib.Logic.Function.Iterate

/-!
# A changed byte changes the checksum

The register of the checksum takes in a message byte by byte. Whatever it holds, different bytes
leave it different, and whatever byte it takes in, different registers stay different. So once two
messages of one length have made a difference in the register, no bytes that both of them go on with
can undo it.

* `CommandLog.Checksum.shiftBit_injective` – **the register can be moved back by one bit**: the bit
  that was pushed out shows in the highest bit, where only the polynomial can have set it;
* `CommandLog.Checksum.absorb_injective` and `CommandLog.Checksum.run_injective` – so it can be by a
  byte, and by a message;
* `CommandLog.Bytes.flip` – a byte string with some bits of one byte turned over;
* `CommandLog.Checksum.of_flip_ne` – **the checksum sees that**, whichever byte it is and however
  long the message.

Nothing is said about messages that differ in more than one byte. Different messages with the same
checksum exist, of course.
-/

namespace CommandLog

namespace Checksum

/-! ### One bit -/

/-- What is pushed out of a register is its remainder by two. -/
theorem and_one_eq_one_iff (a : UInt64) : a &&& 1 = 1 ↔ a.toNat % 2 = 1 := by
  have hand : (a &&& 1).toNat = a.toNat % 2 := Nat.and_one_is_mod a.toNat
  rw [← UInt64.toNat_inj, hand]
  rfl

theorem toNat_shiftRight_one (a : UInt64) : (a >>> 1).toNat = a.toNat / 2 := by
  rw [UInt64.toNat_shiftRight]
  exact Nat.shiftRight_eq_div_pow a.toNat 1

/-- **Only the polynomial sets the highest bit**, so a register that has taken it in is told from
one that has not. -/
theorem shiftRight_ne_xor_polynomial (a b : UInt64) : a >>> 1 ≠ (b >>> 1) ^^^ polynomial := by
  intro h
  have hlow : ∀ c : UInt64, (c >>> 1).toNat < 2 ^ 63 := by
    intro c
    have := c.toNat_lt
    rw [toNat_shiftRight_one]
    omega
  have hpolynomial : polynomial = (b >>> 1) ^^^ (a >>> 1) := by
    rw [h, ← UInt64.xor_assoc, UInt64.xor_self, UInt64.zero_xor]
  have hlt : polynomial.toNat < 2 ^ 63 := by
    rw [hpolynomial, UInt64.toNat_xor]
    exact Nat.xor_lt_two_pow (hlow b) (hlow a)
  exact absurd hlt (by decide)

/-- A register is its lowest bit and the other ones. -/
theorem eq_of_shiftRight_eq {a b : UInt64} (hlowest : a &&& 1 = 1 ↔ b &&& 1 = 1)
    (hothers : a >>> 1 = b >>> 1) : a = b := by
  have hhalf := congrArg UInt64.toNat hothers
  rw [toNat_shiftRight_one, toNat_shiftRight_one] at hhalf
  rw [and_one_eq_one_iff, and_one_eq_one_iff] at hlowest
  rw [← UInt64.toNat_inj]
  omega

/-- **The register can be moved back by one bit.** -/
theorem shiftBit_injective : Function.Injective shiftBit := by
  intro a b h
  rw [shiftBit, shiftBit] at h
  split at h
  · next ha =>
    split at h
    · next hb => exact eq_of_shiftRight_eq (by simp [ha, hb]) ((UInt64.xor_left_inj _).mp h)
    · exact absurd h.symm (shiftRight_ne_xor_polynomial b a)
  · next ha =>
    split at h
    · exact absurd h (shiftRight_ne_xor_polynomial a b)
    · next hb => exact eq_of_shiftRight_eq (by simp [ha, hb]) h

/-! ### Bytes and messages -/

theorem shiftByte_injective : Function.Injective shiftByte :=
  shiftBit_injective.iterate 8

/-- **Different registers stay different**, whatever byte both take in. -/
theorem absorb_injective (b : UInt8) : Function.Injective fun register => absorb register b :=
  fun _ _ h => (UInt64.xor_left_inj _).mp (shiftByte_injective h)

/-- **Different bytes leave a register different.** -/
theorem absorb_injective_byte (register : UInt64) : Function.Injective (absorb register) :=
  fun _ _ h => UInt8.toUInt64_inj.mp ((UInt64.xor_right_inj _).mp (shiftByte_injective h))

/-- **Different registers stay different**, whatever message both take in. -/
theorem run_injective (message : Bytes) :
    Function.Injective fun register => run register message := by
  induction message with
  | nil => exact fun _ _ h => h
  | cons b message ih => exact fun _ _ h => absorb_injective b (ih h)

/-- **Two messages that differ in one byte have different checksums**: up to that byte the register
is the same for both, and behind it the difference stays. -/
theorem of_ne_of_byte_ne (front back : Bytes) {x y : UInt8} (h : x ≠ y) :
    of (front ++ x :: back) ≠ of (front ++ y :: back) := by
  intro heq
  have hrun := UInt64.not_inj.mp heq
  simp only [run, List.foldl_append, List.foldl_cons] at hrun
  exact h (absorb_injective_byte _ (run_injective back hrun))

end Checksum

/-! ### One changed byte -/

namespace Bytes

variable {bs front back : Bytes} {i : Nat} {mask : UInt8}

/-- **A byte string with the bits of a mask turned over** in one of its bytes. -/
def flip (mask : UInt8) (i : Nat) (bs : Bytes) : Bytes :=
  bs.modify i (· ^^^ mask)

@[simp] theorem length_flip (mask : UInt8) (i : Nat) (bs : Bytes) :
    (flip mask i bs).length = bs.length :=
  List.length_modify _ _ _

/-- A byte of the first part is changed in the first part. -/
theorem flip_append_left (mask : UInt8) (h : i < front.length) :
    flip mask i (front ++ back) = flip mask i front ++ back := by
  induction front generalizing i with
  | nil => exact absurd h (Nat.not_lt_zero i)
  | cons b front ih =>
    cases i with
    | zero => rfl
    | succ i => exact congrArg (b :: ·) (ih (Nat.lt_of_succ_lt_succ h))

/-- A byte of the second part is changed in the second part. -/
theorem flip_append_right (mask : UInt8) (front : Bytes) (i : Nat) (back : Bytes) :
    flip mask (front.length + i) (front ++ back) = front ++ flip mask i back := by
  induction front with
  | nil => rw [List.length_nil, Nat.zero_add, List.nil_append, List.nil_append]
  | cons b front ih =>
    rw [List.length_cons, Nat.add_right_comm]
    exact congrArg (b :: ·) ih

/-- **One byte is another one**, and all the others are as they were. -/
theorem exists_eq_flip (hi : i < bs.length) (hmask : mask ≠ 0) :
    ∃ front x y back, x ≠ y ∧ bs = front ++ x :: back ∧ flip mask i bs = front ++ y :: back := by
  obtain ⟨front, x, back, hbs, -, hflip⟩ := List.exists_of_modify (· ^^^ mask) hi
  refine ⟨front, x, x ^^^ mask, back, ?_, hbs, hflip⟩
  intro heq
  rw [← UInt8.xor_zero (a := x), UInt8.xor_assoc, UInt8.xor_right_inj, UInt8.zero_xor] at heq
  exact hmask heq.symm

theorem flip_ne (hi : i < bs.length) (hmask : mask ≠ 0) : flip mask i bs ≠ bs := by
  obtain ⟨front, x, y, back, hne, hbs, hflip⟩ := exists_eq_flip hi hmask
  rw [hflip, hbs]
  simpa using hne.symm

end Bytes

/-- **The checksum sees a changed byte**, whichever it is. -/
theorem Checksum.of_flip_ne {message : Bytes} {i : Nat} {mask : UInt8} (hi : i < message.length)
    (hmask : mask ≠ 0) : of (Bytes.flip mask i message) ≠ of message := by
  obtain ⟨front, x, y, back, hne, hmessage, hflip⟩ := Bytes.exists_eq_flip hi hmask
  rw [hflip, hmessage]
  exact of_ne_of_byte_ne front back hne.symm

end CommandLog
