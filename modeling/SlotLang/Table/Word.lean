/-!
# Integers as bytes

An `int` is stored as four bytes, the least significant first. `decode_encode` says that nothing is
lost.
-/

namespace SlotLang.Word

/-- The number of bytes an `int` takes. -/
def size : Nat := 4

/-- The bytes of an `int`. -/
def encode (v : Int32) : List UInt8 :=
  let n := v.toUInt32.toNat
  [UInt8.ofNat n, UInt8.ofNat (n / 256), UInt8.ofNat (n / 65536), UInt8.ofNat (n / 16777216)]

/-- The number that bytes stand for, the least significant first. -/
def value : List UInt8 → Nat
  | [] => 0
  | b :: bs => b.toNat + 256 * value bs

/-- The `int` in the first four of some bytes. -/
def decode (bytes : List UInt8) : Int32 := (UInt32.ofNat (value (bytes.take size))).toInt32

@[simp]
theorem length_encode (v : Int32) : (encode v).length = size := rfl

theorem value_encode (v : Int32) : value (encode v) = v.toUInt32.toNat := by
  have h := v.toUInt32.toNat_lt
  simp only [encode, value, UInt8.toNat_ofNat']
  omega

/-- What is stored is read back, whatever bytes follow. -/
theorem decode_encode (v : Int32) (bytes : List UInt8) : decode (encode v ++ bytes) = v := by
  have h : (encode v ++ bytes).take size = encode v := List.take_left' rfl
  rw [decode, h, value_encode, UInt32.ofNat_toNat]
  rfl

end SlotLang.Word
