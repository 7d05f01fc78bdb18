/-
  Shortest walks in a directed graph with costs.

  The graph is a relation: `E u v c` is an arc from `u` to `v` of cost `c`, and
  there may be several arcs between two vertices.  `IsDist E r v d` says that `d`
  is the least cost of a walk from `r` to `v`.

  * `Walk.exists_isDist`, `IsDist.unique`: distances exist and are unique;
  * `Walk.exists_le_sum`: a vertex that can be reached at all can be reached at
    the cost of one arc for each vertex;
  * `isDist_iff_of_closed`: labels that are costs of walks and that no arc improves are
    the distances, whatever the order in which they were found.
-/
import Mathlib

namespace ShortestPath

variable {V : Type*} {E : V → V → ℕ → Prop} {r u v : V} {c d d' : ℕ}

/-- A walk from `r` to `v` of cost `d`. -/
inductive Walk (E : V → V → ℕ → Prop) (r : V) : V → ℕ → Prop where
  | nil : Walk E r r 0
  | snoc {u v : V} {d c : ℕ} (h : Walk E r u d) (e : E u v c) : Walk E r v (d + c)

/-- `d` is the least cost of a walk from `r` to `v`. -/
structure IsDist (E : V → V → ℕ → Prop) (r v : V) (d : ℕ) : Prop where
  walk : Walk E r v d
  le : ∀ {d' : ℕ}, Walk E r v d' → d ≤ d'

theorem IsDist.unique (h : IsDist E r v d) (h' : IsDist E r v d') : d = d' :=
  le_antisymm (h.le h'.walk) (h'.le h.walk)

theorem Walk.exists_isDist (h : Walk E r v d) : ∃ d', IsDist E r v d' := by
  classical
  have hex : ∃ d, Walk E r v d := ⟨d, h⟩
  exact ⟨Nat.find hex, Nat.find_spec hex, fun hw => Nat.find_min' hex hw⟩

/-! ## The cost of a shortest walk -/

section
variable [DecidableEq V]

/-- A walk that leaves no vertex twice; `s` are the vertices it leaves. -/
inductive Simple (E : V → V → ℕ → Prop) (r : V) : V → Finset V → ℕ → Prop where
  | nil : Simple E r r ∅ 0
  | snoc {u v : V} {s : Finset V} {d c : ℕ} (h : Simple E r u s d) (hu : u ∉ s) (e : E u v c) :
      Simple E r v (insert u s) (d + c)

theorem Simple.walk {s : Finset V} (h : Simple E r v s d) : Walk E r v d := by
  induction h with
  | nil => exact .nil
  | snoc _ _ e ih => exact ih.snoc e

theorem Simple.exists_of_mem {s : Finset V} (h : Simple E r v s d) (hu : u ∈ s) :
    ∃ s' d', Simple E r u s' d' ∧ u ∉ s' := by
  induction h with
  | nil => exact absurd hu (Finset.notMem_empty u)
  | @snoc w v s d c hw hnot e ih =>
    rcases Finset.mem_insert.1 hu with rfl | hu
    · exact ⟨s, d, hw, hnot⟩
    · exact ih hu

theorem Walk.exists_simple (h : Walk E r v d) : ∃ s d', Simple E r v s d' := by
  induction h with
  | nil => exact ⟨∅, 0, .nil⟩
  | @snoc u v d c _ e ih =>
    obtain ⟨s, d', hs⟩ := ih
    by_cases hu : u ∈ s
    · obtain ⟨s', d'', hs', hnot⟩ := hs.exists_of_mem hu
      exact ⟨_, _, hs'.snoc hnot e⟩
    · exact ⟨_, _, hs.snoc hu e⟩

theorem Simple.le_sum {w : V → ℕ} (hw : ∀ u v c, E u v c → c ≤ w u) {s : Finset V}
    (h : Simple E r v s d) : d ≤ ∑ u ∈ s, w u := by
  induction h with
  | nil => exact Nat.zero_le _
  | @snoc u v s d c _ hu e ih =>
    have hc := hw u v c e
    rw [Finset.sum_insert hu]
    omega

/-- **What can be reached is not far**: `w u` bounds the cost of the arcs out of `u`. -/
theorem Walk.exists_le_sum {w : V → ℕ} (hw : ∀ u v c, E u v c → c ≤ w u) (h : Walk E r v d) :
    ∃ (s : Finset V) (d' : ℕ), Walk E r v d' ∧ d' ≤ ∑ u ∈ s, w u := by
  obtain ⟨s, d', hs⟩ := h.exists_simple
  exact ⟨s, d', hs.walk, hs.le_sum hw⟩

end

/-! ## Labels -/

/-- **Labels that no arc improves are the distances.**  Costs from `M` on are not followed; what can be
    reached must be reached below `M`. -/
theorem isDist_iff_of_closed {lab : V → Option ℕ} {M : ℕ} (hroot : lab r = some 0)
    (hsound : ∀ v d, lab v = some d → Walk E r v d)
    (hclosed : ∀ u v d c, lab u = some d → E u v c → d + c < M → ∃ d' ≤ d + c, lab v = some d')
    (hshort : ∀ v d, Walk E r v d → ∃ d' < M, Walk E r v d') (v : V) (d : ℕ) :
    lab v = some d ↔ IsDist E r v d := by
  have hle : ∀ v d, Walk E r v d → d < M → ∃ d' ≤ d, lab v = some d' := by
    intro v d hw
    induction hw with
    | nil => exact fun _ => ⟨0, le_rfl, hroot⟩
    | @snoc u v d c _ e ih =>
      intro hM
      obtain ⟨du, hdu, hlab⟩ := ih (by omega)
      obtain ⟨dv, hdv, hlab'⟩ := hclosed u v du c hlab e (by omega)
      exact ⟨dv, by omega, hlab'⟩
  constructor
  · intro hlab
    refine ⟨hsound v d hlab, fun {d'} hw => ?_⟩
    by_cases hM : d' < M
    · obtain ⟨d₀, hd₀, hlab₀⟩ := hle v d' hw hM
      rw [hlab] at hlab₀
      obtain rfl := Option.some.inj hlab₀
      exact hd₀
    · -- a walk below `M` bounds the label
      obtain ⟨d₁, hd₁, hw₁⟩ := hshort v d' hw
      obtain ⟨d₀, hd₀, hlab₀⟩ := hle v d₁ hw₁ hd₁
      rw [hlab] at hlab₀
      obtain rfl := Option.some.inj hlab₀
      omega
  · intro hdist
    obtain ⟨d₁, hd₁, hw₁⟩ := hshort v d hdist.walk
    obtain ⟨d₀, hd₀, hlab⟩ := hle v d₁ hw₁ hd₁
    obtain ⟨d₂, hd₂, hlab'⟩ := hle v d hdist.walk (lt_of_le_of_lt (hdist.le hw₁) hd₁)
    have hge := hdist.le (hsound v d₂ hlab')
    obtain rfl : d₂ = d := le_antisymm hd₂ hge
    exact hlab'

end ShortestPath
