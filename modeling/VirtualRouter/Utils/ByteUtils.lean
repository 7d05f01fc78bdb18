/-
  Reads and writes in network byte order (`utils/ByteUtils.hpp`), as the code
  runs on a little-endian host.  A write is the list of the bytes it stores.

  A read at a place that holds what the write of the same width stored gives the
  value back: `readU16_holds`, `readU24_holds`, `readU32_holds`, `readU64_holds`; and a
  write of what was read stores the bytes that were there: `writeU16_readU16`,
  `writeU32_readU32`.  `readAt_byte`, `readAt_u16`, `readAt_u24` and `readAt_u32` say so
  of a read with its bounds.
-/
import VirtualRouter.Lib.BoundedRead

namespace VirtualRouter.Utils

open Bytes

variable {p : BytePtr} {l : List UInt8}

def readU16 (p : BytePtr) : UInt16 := (p 0).toUInt16 <<< 8 ||| (p 1).toUInt16

def readU24 (p : BytePtr) : UInt32 :=
  (p 0).toUInt32 <<< 16 ||| (p 1).toUInt32 <<< 8 ||| (p 2).toUInt32

def readU32 (p : BytePtr) : UInt32 :=
  (p 0).toUInt32 <<< 24 ||| (p 1).toUInt32 <<< 16 ||| (p 2).toUInt32 <<< 8 ||| (p 3).toUInt32

def readU48 (p : BytePtr) : UInt64 :=
  (p 0).toUInt64 <<< 40 ||| (p 1).toUInt64 <<< 32 ||| (p 2).toUInt64 <<< 24 |||
    (p 3).toUInt64 <<< 16 ||| (p 4).toUInt64 <<< 8 ||| (p 5).toUInt64

def readU64 (p : BytePtr) : UInt64 :=
  (p 0).toUInt64 <<< 56 ||| (p 1).toUInt64 <<< 48 ||| (p 2).toUInt64 <<< 40 |||
    (p 3).toUInt64 <<< 32 ||| (p 4).toUInt64 <<< 24 ||| (p 5).toUInt64 <<< 16 |||
    (p 6).toUInt64 <<< 8 ||| (p 7).toUInt64

def writeU16 (val : UInt16) : List UInt8 := [(val >>> 8).toUInt8, val.toUInt8]

/-- `writeU24`: the low 24 bits. -/
def writeU24 (val : UInt32) : List UInt8 :=
  [(val >>> 16).toUInt8, (val >>> 8).toUInt8, val.toUInt8]

def writeU32 (val : UInt32) : List UInt8 :=
  [(val >>> 24).toUInt8, (val >>> 16).toUInt8, (val >>> 8).toUInt8, val.toUInt8]

/-- `writeU48`: the low 48 bits. -/
def writeU48 (val : UInt64) : List UInt8 :=
  [(val >>> 40).toUInt8, (val >>> 32).toUInt8, (val >>> 24).toUInt8, (val >>> 16).toUInt8,
    (val >>> 8).toUInt8, val.toUInt8]

def writeU64 (val : UInt64) : List UInt8 :=
  [(val >>> 56).toUInt8, (val >>> 48).toUInt8, (val >>> 40).toUInt8, (val >>> 32).toUInt8,
    (val >>> 24).toUInt8, (val >>> 16).toUInt8, (val >>> 8).toUInt8, val.toUInt8]

@[simp] theorem length_writeU16 (v : UInt16) : (writeU16 v).length = 2 := rfl

@[simp] theorem length_writeU24 (v : UInt32) : (writeU24 v).length = 3 := rfl

@[simp] theorem length_writeU32 (v : UInt32) : (writeU32 v).length = 4 := rfl

@[simp] theorem length_writeU64 (v : UInt64) : (writeU64 v).length = 8 := rfl

theorem readU16_holds {v : UInt16} (h : Holds p (writeU16 v)) : readU16 p = v := by
  simp only [writeU16, holds_cons, add_apply] at h
  obtain ⟨h0, h1, -⟩ := h
  rw [readU16, h0, h1]
  apply UInt16.toBitVec_inj.mp
  ext i hi
  simp [-UInt16.toUInt16_toUInt8]
  grind

theorem writeU16_readU16 (p : BytePtr) : writeU16 (readU16 p) = [p 0, p 1] := by
  simp only [writeU16, readU16, List.cons.injEq, and_true]
  constructor
  · apply UInt8.toBitVec_inj.mp
    ext i hi
    simp
    grind
  · apply UInt8.toBitVec_inj.mp
    ext i hi
    simp

theorem readU24_holds {v : UInt32} (h : Holds p (writeU24 v)) : readU24 p = v &&& 0xFFFFFF := by
  simp only [writeU24, holds_cons, add_apply] at h
  obtain ⟨h0, h1, h2, -⟩ := h
  rw [readU24, h0, h1, h2]
  have hmask : ∀ i, (hi : i < 32) → (0xFFFFFF#32)[i] = decide (i < 24) := by decide
  apply UInt32.toBitVec_inj.mp
  ext i hi
  simp [-UInt32.toUInt32_toUInt8]
  rw [hmask i hi]
  grind

theorem readU32_holds {v : UInt32} (h : Holds p (writeU32 v)) : readU32 p = v := by
  simp only [writeU32, holds_cons, add_apply] at h
  obtain ⟨h0, h1, h2, h3, -⟩ := h
  rw [readU32, h0, h1, h2, h3]
  apply UInt32.toBitVec_inj.mp
  ext i hi
  simp [-UInt32.toUInt32_toUInt8]
  grind

theorem writeU32_readU32 (p : BytePtr) : writeU32 (readU32 p) = [p 0, p 1, p 2, p 3] := by
  simp only [writeU32, readU32, List.cons.injEq, and_true]
  refine ⟨?_, ?_, ?_, ?_⟩ <;> apply UInt8.toBitVec_inj.mp <;> ext i hi <;> simp <;> grind

theorem readU64_holds {v : UInt64} (h : Holds p (writeU64 v)) : readU64 p = v := by
  simp only [writeU64, holds_cons, add_apply] at h
  obtain ⟨h0, h1, h2, h3, h4, h5, h6, h7, -⟩ := h
  rw [readU64, h0, h1, h2, h3, h4, h5, h6, h7]
  apply UInt64.toBitVec_inj.mp
  ext i hi
  simp [-UInt64.toUInt64_toUInt8]
  grind

/-! ## Reads with their bounds -/

section
variable {ε α : Type} {oob : ε} {rest : List UInt8} {i : ℕ}

theorem readAt_drop {n : ℕ} {v : List UInt8} {f : BytePtr → α} (h : l.drop i = v ++ rest)
    (hn : v.length = n) (hpos : 0 < n) : readAt oob l i n f = .ok (f ((ofList l).add i)) := by
  have hle := le_of_drop h (hn ▸ hpos)
  exact readAt_ok (hn ▸ hle)

theorem readAt_byte {b : UInt8} (h : l.drop i = b :: rest) : readAt oob l i 1 (· 0) = .ok b := by
  have hdrop : l.drop i = [b] ++ rest := h
  rw [readAt_drop (n := 1) hdrop rfl Nat.one_pos]
  exact congrArg Except.ok (holds_cons.1 (holds_drop hdrop)).1

theorem readAt_u16 {v : UInt16} (h : l.drop i = writeU16 v ++ rest) :
    readAt oob l i 2 readU16 = .ok v := by
  rw [readAt_drop (n := 2) h rfl Nat.two_pos, readU16_holds (holds_drop h)]

theorem readAt_u24 {v : UInt32} (h : l.drop i = writeU24 v ++ rest) :
    readAt oob l i 3 readU24 = .ok (v &&& 0xFFFFFF) := by
  rw [readAt_drop (n := 3) h rfl (Nat.succ_pos 2), readU24_holds (holds_drop h)]

theorem readAt_u32 {v : UInt32} (h : l.drop i = writeU32 v ++ rest) :
    readAt oob l i 4 readU32 = .ok v := by
  rw [readAt_drop (n := 4) h rfl (Nat.succ_pos 3), readU32_holds (holds_drop h)]

end

end VirtualRouter.Utils
