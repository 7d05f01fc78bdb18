/-
  The loop of `parsePathAttributes` as a run.

  * `ParseStep`: one round, from a position and a state to the next ones;
  * `Reaches`: the loop comes from one to the other;
  * `readAttr_spec`: what a round reads, and how far it moves;
  * `parseAttrsFrom_ok_iff`: the loop returns a state iff it ends in it.
-/
import VirtualRouter.Bgp.UpdateParser

namespace VirtualRouter.Bgp

open Bytes Utils

/-! ## One attribute -/

namespace RxAttr

/-- `extendedLength`. -/
def extended (a : RxAttr) : Bool := a.flags &&& BGP_ATTR_FLAG_EXTENDED_LENGTH != 0

/-- The length of the header. -/
def hdrLen (a : RxAttr) : ℕ := if a.extended then 4 else 3

def maxLen (a : RxAttr) : ℕ := if a.extended then 65535 else 255

end RxAttr

section
variable {data : List UInt8} {flags type : UInt8} {pos attrLen next : ℕ} {a : RxAttr}

theorem readValue_spec (h : readValue data flags type pos attrLen = .ok (a, next)) :
    a.flags = flags ∧ a.val.length = attrLen ∧ next = pos + attrLen ∧ next ≤ data.length := by
  rw [readValue] at h
  by_cases hlen : pos + attrLen > data.length
  · rw [if_pos hlen] at h
    cases h
  · rw [if_neg hlen, subspan_ok (by omega), ok_bind] at h
    obtain ⟨rfl, rfl⟩ := Prod.mk.inj (Except.ok.inj h)
    refine ⟨rfl, ?_, rfl, by omega⟩
    rw [List.length_take, List.length_drop]
    omega

theorem readAttr_spec (h : readAttr data pos = .ok (a, next)) :
    next = pos + a.hdrLen + a.val.length ∧ next ≤ data.length ∧ a.val.length ≤ a.maxLen := by
  rw [readAttr] at h
  by_cases hpos : pos + 2 > data.length
  · rw [if_pos hpos] at h
    cases h
  · rw [if_neg hpos] at h
    obtain ⟨flags, -, h⟩ := bind_eq_ok.mp h
    obtain ⟨type, -, h⟩ := bind_eq_ok.mp h
    by_cases hext : flags &&& BGP_ATTR_FLAG_EXTENDED_LENGTH ≠ 0
    · rw [if_pos hext] at h
      split_ifs at h
      obtain ⟨attrLen, -, h⟩ := bind_eq_ok.mp h
      obtain ⟨rfl, hlen, rfl, hend⟩ := readValue_spec h
      have hbound := attrLen.toNat_lt
      have hset : a.extended = true := by simpa [RxAttr.extended] using hext
      rw [RxAttr.hdrLen, RxAttr.maxLen, if_pos hset, if_pos hset]
      omega
    · rw [if_neg hext] at h
      split_ifs at h
      obtain ⟨attrLen, -, h⟩ := bind_eq_ok.mp h
      obtain ⟨rfl, hlen, rfl, hend⟩ := readValue_spec h
      have hbound := attrLen.toNat_lt
      have hset : ¬ a.extended = true := by simpa [RxAttr.extended] using hext
      rw [RxAttr.hdrLen, RxAttr.maxLen, if_neg hset, if_neg hset]
      omega

theorem RxAttr.three_le_hdrLen (a : RxAttr) : 3 ≤ a.hdrLen := by
  rw [RxAttr.hdrLen]
  split_ifs <;> omega

theorem readAttr_moves (h : readAttr data pos = .ok (a, next)) : pos < data.length ∧ pos < next := by
  obtain ⟨hnext, hend, -⟩ := readAttr_spec h
  have := a.three_le_hdrLen
  omega

end

/-! ## The run -/

/-- One round of the loop, from a position and a state to the next ones. -/
def ParseStep (cfg : RxConfig) (data : List UInt8) (x y : ℕ × ParseState) : Prop :=
  ∃ a, readAttr data x.1 = .ok (a, y.1) ∧ decodeAttr a x.2 cfg = .ok y.2

/-- The loop comes from `x` to `y`. -/
def Reaches (cfg : RxConfig) (data : List UInt8) : ℕ × ParseState → ℕ × ParseState → Prop :=
  Relation.ReflTransGen (ParseStep cfg data)

/-- The loop ends with the state `s` when it starts from `x`. -/
def Ends (cfg : RxConfig) (data : List UInt8) (x : ℕ × ParseState) (s : ParseState) : Prop :=
  ∃ pos, Reaches cfg data x (pos, s) ∧ data.length ≤ pos

section
variable {cfg : RxConfig} {data : List UInt8} {x y z : ℕ × ParseState} {s : ParseState}

theorem ParseStep.unique (hy : ParseStep cfg data x y) (hz : ParseStep cfg data x z) : y = z := by
  obtain ⟨a, hread, hdecode⟩ := hy
  obtain ⟨b, hread', hdecode'⟩ := hz
  obtain ⟨rfl, hpos⟩ := Prod.mk.inj (Except.ok.inj (hread.symm.trans hread'))
  exact Prod.ext hpos (Except.ok.inj (hdecode.symm.trans hdecode'))

theorem ParseStep.lt (h : ParseStep cfg data x y) : x.1 < data.length := by
  obtain ⟨a, hread, -⟩ := h
  exact (readAttr_moves hread).1

theorem ends_of_end (h : data.length ≤ x.1) : Ends cfg data x s ↔ s = x.2 := by
  constructor
  · rintro ⟨pos, hreach, -⟩
    rcases hreach.cases_head with rfl | ⟨y, hstep, -⟩
    · rfl
    · have := hstep.lt
      omega
  · rintro rfl
    exact ⟨x.1, .refl, h⟩

theorem ends_step (h : ParseStep cfg data x y) : Ends cfg data x s ↔ Ends cfg data y s := by
  constructor
  · rintro ⟨pos, hreach, hend⟩
    rcases hreach.cases_head with rfl | ⟨z, hstep, hreach⟩
    · have hlt := h.lt
      simp only at hlt
      omega
    · obtain rfl := h.unique hstep
      exact ⟨pos, hreach, hend⟩
  · rintro ⟨pos, hreach, hend⟩
    exact ⟨pos, .head h hreach, hend⟩

theorem ends_reaches (h : Reaches cfg data x y) : Ends cfg data x s ↔ Ends cfg data y s := by
  induction h with
  | refl => rfl
  | tail _ hstep ih => rw [ih, ends_step hstep]

theorem not_ends (hx : x.1 < data.length) (h : ∀ y, ¬ ParseStep cfg data x y) : ¬ Ends cfg data x s := by
  rintro ⟨pos, hreach, hend⟩
  rcases hreach.cases_head with rfl | ⟨y, hstep, -⟩
  · simp only at hx
    omega
  · exact h y hstep

theorem parseAttrsFrom_ok_iff : ∀ (n pos : ℕ) (s s' : ParseState), data.length ≤ n + pos →
    (parseAttrsFrom cfg data n pos s = .ok s' ↔ Ends cfg data (pos, s) s')
  | 0, pos, s, s', hfuel => by
    rw [ends_of_end (by simpa using hfuel), parseAttrsFrom, Except.ok.injEq, eq_comm]
  | n + 1, pos, s, s', hfuel => by
    rw [parseAttrsFrom]
    by_cases hpos : pos < data.length
    · rw [if_pos hpos]
      cases hread : readAttr data pos with
      | error e =>
        refine iff_of_false (by simp) (not_ends hpos ?_)
        rintro y ⟨a, hread', -⟩
        rw [hread] at hread'
        cases hread'
      | ok r =>
        rw [ok_bind]
        cases hdecode : decodeAttr r.1 s cfg with
        | error e =>
          refine iff_of_false (by simp) (not_ends hpos ?_)
          rintro y ⟨a, hread', hdecode'⟩
          obtain rfl : r = (a, y.1) := Except.ok.inj (hread.symm.trans hread')
          rw [hdecode] at hdecode'
          cases hdecode'
        | ok s₁ =>
          have hmoves := (readAttr_moves hread).2
          have hstep : ParseStep cfg data (pos, s) (r.2, s₁) := ⟨r.1, hread, hdecode⟩
          rw [ok_bind, parseAttrsFrom_ok_iff n r.2 s₁ s' (by omega), ends_step hstep]
    · rw [if_neg hpos, ends_of_end (by simpa using hpos), Except.ok.injEq, eq_comm]

end

end VirtualRouter.Bgp
