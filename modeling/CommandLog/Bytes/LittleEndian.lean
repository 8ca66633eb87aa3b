import CommandLog.Bytes

/-!
# Little-endian numbers

The journal stores its integers least significant byte first, in a fixed number of bytes.

* `CommandLog.LittleEndian.encode` writes the low `width` bytes of a number;
* `CommandLog.LittleEndian.decode` reads a byte string as a number.

Reading what was written gives the number back as soon as it fits into the bytes
(`CommandLog.LittleEndian.decode_encode`), and a byte string is the encoding of what it reads as
(`CommandLog.LittleEndian.encode_decode`), so the two sides of the format agree on all inputs.
-/

namespace CommandLog.LittleEndian

/-- The low `width` bytes of `n`, least significant first. -/
def encode : Nat → Nat → Bytes
  | 0, _ => []
  | width + 1, n => UInt8.ofNat (n % 256) :: encode width (n / 256)

/-- The number that a byte string stands for, least significant byte first. -/
def decode : Bytes → Nat
  | [] => 0
  | b :: bs => b.toNat + 256 * decode bs

/-- One past the greatest number of so many bytes. -/
def bound : Nat → Nat
  | 0 => 1
  | width + 1 => 256 * bound width

@[simp] theorem length_encode (width n : Nat) : (encode width n).length = width := by
  induction width generalizing n with
  | zero => rfl
  | succ w ih => simp [encode, ih]

theorem decode_lt (bs : Bytes) : decode bs < bound bs.length := by
  induction bs with
  | nil => simp [decode, bound]
  | cons b bs ih =>
    have hb := b.toNat_lt
    simp only [decode, List.length_cons, bound]
    omega

theorem decode_encode {width n : Nat} (h : n < bound width) : decode (encode width n) = n := by
  induction width generalizing n with
  | zero =>
    simp only [bound] at h
    simp only [encode, decode]
    omega
  | succ w ih =>
    have hdiv : n / 256 < bound w := by
      simp only [bound] at h
      exact Nat.div_lt_of_lt_mul h
    have hmod : (UInt8.ofNat (n % 256)).toNat = n % 256 := by
      simp [UInt8.toNat_ofNat']
    simp only [encode, decode, ih hdiv, hmod]
    omega

theorem encode_decode (bs : Bytes) : encode bs.length (decode bs) = bs := by
  induction bs with
  | nil => rfl
  | cons b bs ih =>
    have hb := b.toNat_lt
    have h1 : (b.toNat + 256 * decode bs) % 256 = b.toNat := by omega
    have h2 : (b.toNat + 256 * decode bs) / 256 = decode bs := by omega
    simp only [List.length_cons, encode, decode, h1, h2, ih]
    simp

end CommandLog.LittleEndian
