import Mathlib.Data.Nat.Notation
import Mathlib.Data.List.Basic

/-!
# Checksums

`persist/crc.c` and the streaming form of `persist/ota_stage.c`: the reflected
IEEE 802.3 polynomial, bit by bit, over a state that starts at all ones and is
complemented at the end. `persist/crc16.c`: the CCITT polynomial, most significant
bit first.
-/

namespace OpenEVCharger

/-- One round of the inner loop. -/
def crcBit (crc : UInt32) : UInt32 := (crc >>> 1) ^^^ (0xEDB88320 &&& (0 - (crc &&& 1)))

def crcBits : ℕ → UInt32 → UInt32
  | 0, crc => crc
  | n + 1, crc => crcBits n (crcBit crc)

def crcByte (crc : UInt32) (b : UInt8) : UInt32 := crcBits 8 (crc ^^^ b.toUInt32)

def crcSeed : UInt32 := 0xFFFFFFFF

def crc32 (data : List UInt8) : UInt32 := ~~~(data.foldl crcByte crcSeed)

/-- `struct ota_crc_ctx`. -/
structure OtaCrcCtx where
  state : UInt32
  deriving DecidableEq, Repr

def otaCrcInit : OtaCrcCtx := ⟨crcSeed⟩

def otaCrcUpdate (ctx : OtaCrcCtx) (data : List UInt8) : OtaCrcCtx :=
  ⟨data.foldl crcByte ctx.state⟩

def otaCrcFinalize (ctx : OtaCrcCtx) : UInt32 := ~~~ctx.state

/-- Updating with two pieces is updating with their concatenation. -/
theorem otaCrcUpdate_append (ctx : OtaCrcCtx) (xs ys : List UInt8) :
    otaCrcUpdate (otaCrcUpdate ctx xs) ys = otaCrcUpdate ctx (xs ++ ys) := by
  simp [otaCrcUpdate]

/-- The streaming form over a whole image is the one-shot form. -/
theorem otaCrcFinalize_update_init (data : List UInt8) :
    otaCrcFinalize (otaCrcUpdate otaCrcInit data) = crc32 data := rfl

/-- The check value of the polynomial. -/
example : crc32 [0x31, 0x32, 0x33, 0x34, 0x35, 0x36, 0x37, 0x38, 0x39] = 0xCBF43926 := by
  decide +kernel

/-! ## The 16-bit checksum -/

/-- One round of the inner loop of `crc16_ccitt`. -/
def crc16Bit (crc : UInt16) : UInt16 :=
  if crc &&& 0x8000 ≠ 0 then (crc <<< 1) ^^^ 0x1021 else crc <<< 1

def crc16Bits : ℕ → UInt16 → UInt16
  | 0, crc => crc
  | n + 1, crc => crc16Bits n (crc16Bit crc)

def crc16Byte (crc : UInt16) (b : UInt8) : UInt16 := crc16Bits 8 (crc ^^^ (b.toUInt16 <<< 8))

def crc16Ccitt (data : List UInt8) : UInt16 := data.foldl crc16Byte 0xFFFF

/-- The check value of the polynomial. -/
example : crc16Ccitt [0x31, 0x32, 0x33, 0x34, 0x35, 0x36, 0x37, 0x38, 0x39] = 0x29B1 := by
  decide +kernel

end OpenEVCharger
