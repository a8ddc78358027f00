import Mathlib.Algebra.Group.Nat.Defs
import Mathlib.Data.Nat.Notation

/-!
# RFID re-framer

The reader byte stream of `core/rfid.c`. Frames are `AA D1 D0 02 LL 00 [UID×LL]
STATE` with `LL = 0` for "no card" and `LL = 4` for a card; the C buffer and its
length field are one list here.
-/

namespace OpenEVCharger

def rfidPreamble0 : UInt8 := 0xAA
def rfidPreamble1 : UInt8 := 0xD1
def rfidPreamble2 : UInt8 := 0xD0
def rfidPreamble3 : UInt8 := 0x02

def rfidFrameIdleLen : Nat := 7
def rfidFrameCardLen : Nat := 11
def rfidFrameMaxLen : Nat := 16

/-- `rfid_ctx_t`. -/
structure RfidCtx where
  buf : List UInt8
  lastUid : Nat
  cardPresent : Bool
  deriving DecidableEq, Repr

/-- `rfid_action_t`. -/
structure RfidAction where
  edge : Bool
  uid : Nat
  present : Bool
  deriving DecidableEq, Repr

def rfidInitCtx : RfidCtx := ⟨[], 0, false⟩

/-- Little-endian 32-bit load from byte `off`. -/
def loadLe32 (b : List UInt8) (off : Nat) : Nat :=
  (b.getD off 0).toNat + (b.getD (off + 1) 0).toNat * 2 ^ 8 +
    (b.getD (off + 2) 0).toNat * 2 ^ 16 + (b.getD (off + 3) 0).toNat * 2 ^ 24

/-- Frame length for a length byte, `none` for the lengths the reader rejects. -/
def rfidFrameLen (ll : UInt8) : Option Nat :=
  if ll = 0 then some rfidFrameIdleLen
  else if ll = 4 then some rfidFrameCardLen
  else none

/-- `try_parse_one`: the number of bytes consumed, the new context, and the
caller's action record with the edge of this frame in it, if there was one. -/
def tryParseOne (ctx : RfidCtx) (out : RfidAction) : Nat × RfidCtx × RfidAction :=
  let buf := ctx.buf.dropWhile (· != rfidPreamble0)
  let ll := buf.getD 4 0
  if buf.length < 5 then (0, { ctx with buf := buf }, out)
  else if buf.getD 1 0 ≠ rfidPreamble1 ∨ buf.getD 2 0 ≠ rfidPreamble2 ∨
      buf.getD 3 0 ≠ rfidPreamble3 then
    (0, { ctx with buf := buf.drop 1 }, out)
  else
    match rfidFrameLen ll with
    | none => (0, { ctx with buf := buf.drop 1 }, out)
    | some frameLen =>
      if buf.length < frameLen then (0, { ctx with buf := buf }, out)
      else
        let presentNow := decide (ll = 4)
        let uid := if ll = 4 then loadLe32 buf 6 else 0
        let rest := buf.drop frameLen
        if uid ≠ ctx.lastUid ∨ presentNow ≠ ctx.cardPresent then
          (frameLen, ⟨rest, uid, presentNow⟩, ⟨true, uid, presentNow⟩)
        else (frameLen, { ctx with buf := rest }, out)

/-- One iteration of the append loop: a full buffer drops its oldest byte. -/
def rfidAppend (buf : List UInt8) (b : UInt8) : List UInt8 :=
  if buf.length < rfidFrameMaxLen then buf ++ [b] else buf.drop 1 ++ [b]

/-- The parse loop. Every round that goes on consumes at least one byte, so the
buffer's length is enough fuel. -/
def rfidParseLoop : Nat → RfidCtx → RfidAction → Nat → Nat × RfidCtx × RfidAction
  | 0, ctx, out, edges => (edges, ctx, out)
  | fuel + 1, ctx, out, edges =>
    match tryParseOne ctx out with
    | (0, ctx, out) => (edges, ctx, out)
    | (_ + 1, ctx, out) => rfidParseLoop fuel ctx out (if out.edge then edges + 1 else edges)

/-- `rfid_feed`: the edge count, the new context and the last action. -/
def rfidFeed (ctx : RfidCtx) (bytes : List UInt8) : Nat × RfidCtx × RfidAction :=
  let buf := bytes.foldl rfidAppend ctx.buf
  rfidParseLoop buf.length { ctx with buf := buf } ⟨false, ctx.lastUid, ctx.cardPresent⟩ 0

/-- A card frame on an empty buffer is one card-present edge. -/
example : rfidFeed rfidInitCtx [0xAA, 0xD1, 0xD0, 0x02, 4, 0, 0x78, 0x56, 0x34, 0x12, 0x4C]
    = (1, ⟨[], 0x12345678, true⟩, ⟨true, 0x12345678, true⟩) := by decide

end OpenEVCharger
