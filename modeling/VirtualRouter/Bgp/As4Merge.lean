/-
  The path of a peer without AS numbers of four bytes (`BgpRx::parsePathAttributes`).

  * `hops`: a path as the list of its hops, of which a set is one; `countHops` is its length and
    `keepHops` its beginning;
  * `Merged`: what the two paths of such a peer give;
  * `as4_merged_iff`: so it is if `AS4_PATH` is not the longer one.

  A longer `AS4_PATH` takes the place of the path, as nothing is kept of the path in front of it.
-/
import VirtualRouter.Bgp.BestPath
import VirtualRouter.Bgp.UpdateParser

namespace VirtualRouter.Bgp

open Bytes Utils

/-! ## Hops -/

def AsPathSegment.hops (seg : AsPathSegment) : List (List UInt32) :=
  if seg.segmentType = BGP_AS_SET then (if seg.asns.isEmpty then [] else [seg.asns])
  else seg.asns.map fun asn => [asn]

def hops (segs : List AsPathSegment) : List (List UInt32) := segs.flatMap AsPathSegment.hops

@[simp] theorem hops_nil : hops [] = [] := rfl

@[simp] theorem hops_cons (seg : AsPathSegment) (segs : List AsPathSegment) :
    hops (seg :: segs) = seg.hops ++ hops segs := rfl

theorem hops_append (segs rest : List AsPathSegment) : hops (segs ++ rest) = hops segs ++ hops rest :=
  List.flatMap_append

theorem length_segHops (seg : AsPathSegment) : seg.hops.length = segHops seg := by
  rw [AsPathSegment.hops, segHops]
  split_ifs <;> simp

theorem length_hops (segs : List AsPathSegment) : (hops segs).length = countHops segs := by
  rw [hops, List.length_flatMap, countHops]
  exact congrArg List.sum (List.map_congr_left fun seg _ => length_segHops seg)

theorem hops_cut {seg : AsPathSegment} {toKeep : ℕ} (hpos : toKeep ≠ 0) (hcut : ¬ segHops seg ≤ toKeep) :
    AsPathSegment.hops { seg with asns := seg.asns.take toKeep } = seg.hops.take toKeep := by
  have hset : seg.segmentType ≠ BGP_AS_SET := by
    intro h
    rw [segHops, if_pos h] at hcut
    split_ifs at hcut <;> omega
  rw [AsPathSegment.hops, AsPathSegment.hops, if_neg hset, if_neg hset, List.map_take]

theorem hops_keepHops (segs : List AsPathSegment) (toKeep : ℕ) :
    hops (keepHops segs toKeep) = (hops segs).take toKeep := by
  induction segs generalizing toKeep with
  | nil => rw [keepHops, hops_nil, List.take_nil]
  | cons seg segs ih =>
    rw [keepHops, hops_cons, List.take_append, length_segHops]
    split_ifs with hzero hfits
    · subst hzero
      simp
    · rw [hops_cons, ih, List.take_of_length_le (le_of_eq_of_le (length_segHops seg) hfits)]
    · have hrest : toKeep - segHops seg = 0 := by omega
      rw [hops_cons, hops_cut hzero hfits, hrest, hops_nil, List.take_zero]

theorem countHops_keepHops {segs : List AsPathSegment} {toKeep : ℕ} (h : toKeep ≤ countHops segs) :
    countHops (keepHops segs toKeep) = toKeep := by
  rw [← length_hops, hops_keepHops, List.length_take, length_hops, min_eq_left h]

/-! ## The merge -/

/-- The path that the two give: as long as `asPath` and with `as4Path` at its end, or `asPath` if
    `as4Path` is longer. -/
structure Merged (asPath as4Path path : List AsPathSegment) : Prop where
  length : countHops as4Path ≤ countHops asPath → countHops path = countHops asPath
  suffix : countHops as4Path ≤ countHops asPath → as4Path <:+ path
  ignored : countHops asPath < countHops as4Path → path = asPath

section
variable {cfg : RxConfig} (attrs : Attributes)

theorem mergeAs4_asPath (h2 : cfg.asn32bit = false) :
    (mergeAs4 cfg attrs).asPath = if attrs.as4Path = [] then attrs.asPath
      else keepHops attrs.asPath (countHops attrs.asPath - countHops attrs.as4Path) ++ attrs.as4Path := by
  rw [mergeAs4, h2]
  cases h : attrs.as4Path with
  | nil => simp
  | cons seg segs => simp

theorem merged_of_le (h2 : cfg.asn32bit = false)
    (hle : countHops attrs.as4Path ≤ countHops attrs.asPath) :
    Merged attrs.asPath attrs.as4Path (mergeAs4 cfg attrs).asPath := by
  have hpath := mergeAs4_asPath attrs h2
  refine ⟨fun _ => ?_, fun _ => ?_, fun h => absurd hle (by omega)⟩
  · rw [hpath]
    split_ifs
    · rfl
    · rw [← length_hops, hops_append, List.length_append, length_hops, length_hops,
        countHops_keepHops (Nat.sub_le _ _)]
      omega
  · rw [hpath]
    split_ifs with hnil
    · rw [hnil]
      exact List.nil_suffix
    · exact List.suffix_append _ _

theorem mergeAs4_of_lt (h2 : cfg.asn32bit = false)
    (hlt : countHops attrs.asPath < countHops attrs.as4Path) :
    (mergeAs4 cfg attrs).asPath = attrs.as4Path := by
  have hnil : attrs.as4Path ≠ [] := by
    intro h
    rw [h] at hlt
    exact Nat.not_lt_zero _ hlt
  have hzero : countHops attrs.asPath - countHops attrs.as4Path = 0 := by omega
  have hkeep : keepHops attrs.asPath 0 = [] := by
    cases attrs.asPath with
    | nil => rfl
    | cons seg segs => rfl
  rw [mergeAs4_asPath attrs h2, if_neg hnil, hzero, hkeep, List.nil_append]

theorem merged_iff (h2 : cfg.asn32bit = false) :
    Merged attrs.asPath attrs.as4Path (mergeAs4 cfg attrs).asPath ↔
      countHops attrs.as4Path ≤ countHops attrs.asPath := by
  refine ⟨fun h => ?_, merged_of_le attrs h2⟩
  by_contra hlt
  rw [not_le] at hlt
  have hsame := h.ignored hlt
  rw [mergeAs4_of_lt attrs h2 hlt] at hsame
  rw [hsame] at hlt
  exact lt_irrefl _ hlt

end

/-- **The path of an update** from a peer with AS numbers of two bytes, for the attributes `s` that its
    bytes give: it is the merged one if and only if `AS4_PATH` does not have more hops. -/
theorem as4_merged_iff (cfg : RxConfig) (data : List UInt8) (update u : IncomingUpdate) (s : ParseState)
    (h2 : cfg.asn32bit = false)
    (hs : parseAttrsFrom cfg data data.length 0 { update := update } = .ok s)
    (hu : parsePathAttributes cfg data update = .ok u) :
    Merged s.attrs.asPath s.attrs.as4Path u.attrs.asPath ↔
      countHops s.attrs.as4Path ≤ countHops s.attrs.asPath := by
  have hattrs : u.attrs = mergeAs4 cfg s.attrs := by
    rw [parsePathAttributes, hs, ok_bind] at hu
    cases hu
    rfl
  rw [hattrs]
  exact merged_iff s.attrs h2

/-- The state after the two attributes with one sequence in each. -/
def received (asns asns4 : List UInt32) : ParseState :=
  { update := { attrs := { asPath := [⟨BGP_AS_SEQUENCE, asns⟩], as4Path := [⟨BGP_AS_SEQUENCE, asns4⟩] } } }

def shorterAs4 : List UInt8 :=
  [0x40, 2, 6, 2, 2, 0, 100, 0x5B, 0xA0, 0xC0, 17, 6, 2, 1, 0, 1, 0x11, 0x70]

def longerAs4 : List UInt8 :=
  [0x40, 2, 6, 2, 2, 0, 100, 0x5B, 0xA0,
    0xC0, 17, 14, 2, 3, 0, 0, 0, 200, 0, 0, 0, 100, 0, 1, 0x11, 0x70]

theorem as4_merged_iff_shorter :
    Merged [⟨BGP_AS_SEQUENCE, [100, 23456]⟩] [⟨BGP_AS_SEQUENCE, [70000]⟩]
        [⟨BGP_AS_SEQUENCE, [100]⟩, ⟨BGP_AS_SEQUENCE, [70000]⟩] ↔
      countHops [⟨BGP_AS_SEQUENCE, [70000]⟩] ≤ countHops [⟨BGP_AS_SEQUENCE, [100, 23456]⟩] :=
  as4_merged_iff ⟨false, fun _ => false, fun _ => false⟩ shorterAs4 {}
    { attrs := { asPath := [⟨BGP_AS_SEQUENCE, [100]⟩, ⟨BGP_AS_SEQUENCE, [70000]⟩] } }
    (received [100, 23456] [70000]) rfl rfl rfl

/-- The `AS4_PATH` with three hops takes the place of the `AS_PATH` with two. -/
theorem not_as4_merged :
    ¬ ∀ (cfg : RxConfig) (data : List UInt8) (update u : IncomingUpdate) (s : ParseState),
      cfg.asn32bit = false →
      parseAttrsFrom cfg data data.length 0 { update := update } = .ok s →
      parsePathAttributes cfg data update = .ok u →
      Merged s.attrs.asPath s.attrs.as4Path u.attrs.asPath := by
  intro h
  have hloop : parseAttrsFrom ⟨false, fun _ => false, fun _ => false⟩ longerAs4 longerAs4.length 0 {} =
      .ok (received [100, 23456] [200, 100, 70000]) := rfl
  have hread : parsePathAttributes ⟨false, fun _ => false, fun _ => false⟩ longerAs4 {} =
      .ok { attrs := { asPath := [⟨BGP_AS_SEQUENCE, [200, 100, 70000]⟩] } } := by
    rw [parsePathAttributes, hloop]
    rfl
  have hmerged := h _ _ _ _ _ rfl hloop hread
  have hsame := hmerged.ignored (by decide)
  revert hsame
  decide

end VirtualRouter.Bgp
