/-
  Writing into a buffer with its bounds.

  `writeAt oob buf off bytes` replaces the bytes at `off` and stops with `oob`
  where they leave the buffer.  A writer that goes through its buffer in order is
  followed by the bytes `w` written so far, the buffer being `written w buf`.
-/
import VirtualRouter.Lib.BoundedRead

namespace Bytes

variable {ε : Type} {oob : ε} {buf w bytes : List UInt8} {off : ℕ}

def writeAt (oob : ε) (buf : List UInt8) (off : ℕ) (bytes : List UInt8) : Except ε (List UInt8) :=
  if off + bytes.length ≤ buf.length then
    .ok (buf.take off ++ bytes ++ buf.drop (off + bytes.length))
  else .error oob

/-- The buffer whose first bytes were replaced by `w`. -/
def written (w buf : List UInt8) : List UInt8 := w ++ buf.drop w.length

theorem written_nil (buf : List UInt8) : written [] buf = buf := rfl

theorem length_written (h : w.length ≤ buf.length) : (written w buf).length = buf.length := by
  rw [written, List.length_append, List.length_drop]
  omega

theorem writeAt_next (hoff : off = w.length) (h : w.length + bytes.length ≤ buf.length) :
    writeAt oob (written w buf) off bytes = .ok (written (w ++ bytes) buf) := by
  subst hoff
  have hlen : (written w buf).length = buf.length := length_written (by omega)
  rw [writeAt, if_pos (by omega)]
  have htake : (written w buf).take w.length = w := List.take_left
  have hdrop : (written w buf).drop (w.length + bytes.length) =
      buf.drop (w.length + bytes.length) := by
    rw [← List.drop_drop, written, List.drop_left, List.drop_drop]
  rw [htake, hdrop, written, List.length_append]

theorem writeAt_zero (h : bytes.length ≤ buf.length) :
    writeAt oob buf 0 bytes = .ok (written bytes buf) := by
  have hnext : writeAt oob (written [] buf) 0 bytes = .ok (written ([] ++ bytes) buf) :=
    writeAt_next rfl (by simpa using h)
  rwa [written_nil, List.nil_append] at hnext

theorem writeAt_inside {u v x : List UInt8} (hw : w = u ++ v ++ x) (hoff : off = u.length)
    (hlen : bytes.length = v.length) (h : w.length ≤ buf.length) :
    writeAt oob (written w buf) off bytes = .ok (written (u ++ bytes ++ x) buf) := by
  subst hw hoff
  have hbuf := length_written h
  simp only [List.length_append] at hbuf h
  rw [writeAt, if_pos (by omega)]
  have hsplit : written (u ++ v ++ x) buf =
      u ++ (v ++ (x ++ buf.drop (u ++ v ++ x).length)) := by
    simp only [written, List.append_assoc]
  have htake : (written (u ++ v ++ x) buf).take u.length = u := by
    rw [hsplit, List.take_left]
  have hdrop : (written (u ++ v ++ x) buf).drop (u.length + bytes.length) =
      x ++ buf.drop (u ++ v ++ x).length := by
    rw [hsplit, hlen, ← List.drop_drop, List.drop_left, List.drop_left]
  rw [htake, hdrop, written]
  simp only [List.append_assoc, List.length_append, hlen]

end Bytes
