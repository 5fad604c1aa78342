/-!
# Little-endian words

A word of `n` bytes is written with its lowest byte first. `bytes` and `value`
work on natural numbers; the fixed-width integers reach them through their bit
patterns, so a negative number travels as its two's complement.
-/

namespace NodeGraph.Wire.Word

/-- The lowest `n` bytes of a number, lowest first. -/
def bytes : Nat → Nat → List UInt8
  | 0, _ => []
  | n + 1, v => UInt8.ofNat (v % 256) :: bytes n (v / 256)

/-- The number that bytes write, lowest first. -/
def value : List UInt8 → Nat
  | [] => 0
  | b :: bs => b.toNat + 256 * value bs

/-- How many numbers a word of `n` bytes can write. -/
def span : Nat → Nat
  | 0 => 1
  | n + 1 => 256 * span n

@[simp] theorem length_bytes (n v : Nat) : (bytes n v).length = n := by
  induction n generalizing v with
  | zero => rfl
  | succ n ih => simp [bytes, ih]

/-- Reading back gives the number, as far as the bytes reach. -/
theorem value_bytes (n v : Nat) : value (bytes n v) = v % span n := by
  induction n generalizing v with
  | zero => simp [bytes, value, span, Nat.mod_one]
  | succ n ih =>
    have hb : (UInt8.ofNat (v % 256)).toNat = v % 256 := by simp
    rw [bytes, value, ih, hb, span, Nat.mod_mul]

/-- Bytes are the word of the number they write. -/
theorem bytes_value (bs : List UInt8) : bytes bs.length (value bs) = bs := by
  induction bs with
  | nil => rfl
  | cons b bs ih =>
    have hb : b.toNat < 256 := b.toNat_lt
    have hm : (b.toNat + 256 * value bs) % 256 = b.toNat := by omega
    have hd : (b.toNat + 256 * value bs) / 256 = value bs := by omega
    simp [bytes, value, hm, hd, ih]

/-- A number read from `n` bytes is one of those they can write. -/
theorem value_lt (bs : List UInt8) : value bs < span bs.length := by
  induction bs with
  | nil => simp [value, span]
  | cons b bs ih =>
    have hb : b.toNat < 256 := b.toNat_lt
    rw [value, List.length_cons, span]
    omega

end NodeGraph.Wire.Word
