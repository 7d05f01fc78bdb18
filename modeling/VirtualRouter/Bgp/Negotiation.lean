/-
  What two sessions that exchange their capabilities negotiate
  (`Session::negotiateCapabilities`).

  The inner loops of the negotiation stop at the first entry of the peer with
  the key of the local one.  Without duplicate keys the matched pairs are those
  of equal keys (`mem_matched`), which is a symmetric relation, and the agreed
  directions are crossed by exchanging the two entries (`agreedAddPath_send`,
  `agreedOrf_send`).  The active families are not symmetric: IPv4 unicast is
  added for an empty list of the peer only (`activeFamilies_eq_iff`).

  * `NegotiatedCapabilities.Agree`: what the two ends should agree on;
  * `agree_negotiateCapabilities_iff`: they do iff both lists of families are
    empty or neither is.
-/
import VirtualRouter.Bgp.Session

namespace VirtualRouter.Bgp

/-! ## Entries matched by a key -/

section Matched
variable {α β κ : Type*} [DecidableEq κ]

theorem find?_key_eq_some {key : α → κ} {k : κ} {b : α} :
    ∀ {l : List α}, (l.map key).Nodup →
      (l.find? (fun b => k = key b) = some b ↔ b ∈ l ∧ k = key b)
  | [], _ => by simp
  | c :: l, h => by
    obtain ⟨hc, hl⟩ := List.nodup_cons.1 h
    by_cases hk : k = key c
    · have hne : ∀ d ∈ l, k ≠ key d := fun d hd e => hc (hk ▸ e ▸ List.mem_map_of_mem hd)
      rw [List.find?_cons_of_pos (by simpa using hk), List.mem_cons]
      constructor
      · rintro ⟨⟩
        exact ⟨Or.inl rfl, hk⟩
      · rintro ⟨rfl | hb, he⟩
        · rfl
        · exact absurd he (hne b hb)
    · rw [List.find?_cons_of_neg (by simpa using hk), find?_key_eq_some hl, List.mem_cons]
      constructor
      · rintro ⟨hb, he⟩
        exact ⟨Or.inr hb, he⟩
      · rintro ⟨rfl | hb, he⟩
        · exact absurd he hk
        · exact ⟨hb, he⟩

/-- The result of a loop over `mine` that combines each entry with the entry of
    `peer` of the same key, if the inner loop finds one. -/
theorem mem_matched {key : α → κ} (f : α → α → Option β) (mine : List α) {peer : List α}
    (h : (peer.map key).Nodup) {c : β} :
    c ∈ mine.filterMap (fun a => (peer.find? fun b => key a = key b).bind (f a)) ↔
      ∃ a ∈ mine, ∃ b ∈ peer, key a = key b ∧ f a b = some c := by
  simp only [List.mem_filterMap, Option.bind_eq_some_iff, find?_key_eq_some h, and_assoc]

end Matched

/-! ## What is negotiated -/

namespace NegotiatedCapabilities

variable (n : NegotiatedCapabilities)

def SendsAddPath (f : AfiSafi) : Prop :=
  ∃ e ∈ n.addPathFamilies, e.family = f ∧ e.sendReceive &&& BGP_ADD_PATH_SEND ≠ 0

def ReceivesAddPath (f : AfiSafi) : Prop :=
  ∃ e ∈ n.addPathFamilies, e.family = f ∧ e.sendReceive &&& BGP_ADD_PATH_RECEIVE ≠ 0

/-- Outbound route filters of the type are sent for the family. -/
def SendsOrf (f : AfiSafi) (orfType : UInt8) : Prop :=
  ∃ e ∈ n.orfEntries, (e.family, e.orfType) = (f, orfType) ∧ e.sendReceive &&& BGP_ORF_SEND ≠ 0

/-- Outbound route filters of the type are accepted for the family. -/
def ReceivesOrf (f : AfiSafi) (orfType : UInt8) : Prop :=
  ∃ e ∈ n.orfEntries, (e.family, e.orfType) = (f, orfType) ∧ e.sendReceive &&& BGP_ORF_RECEIVE ≠ 0

def LlgrStaleTime (f : AfiSafi) (staleTime : UInt32) : Prop :=
  ∃ e ∈ n.llgrFamilies, (e.family, e.staleTime) = (f, staleTime)

structure Agree (x y : NegotiatedCapabilities) : Prop where
  asn32bit : x.asn32bit = y.asn32bit
  routeRefresh : x.routeRefresh = y.routeRefresh
  enhancedRR : x.enhancedRR = y.enhancedRR
  extendedMessage : x.extendedMessage = y.extendedMessage
  gracefulRestart : x.gracefulRestart = y.gracefulRestart
  activeFamilies : x.activeFamilies = y.activeFamilies
  addPath_send : ∀ f, x.SendsAddPath f ↔ y.ReceivesAddPath f
  addPath_receive : ∀ f, x.ReceivesAddPath f ↔ y.SendsAddPath f
  orf_send : ∀ f t, x.SendsOrf f t ↔ y.ReceivesOrf f t
  orf_receive : ∀ f t, x.ReceivesOrf f t ↔ y.SendsOrf f t
  llgr : ∀ f t, x.LlgrStaleTime f t ↔ y.LlgrStaleTime f t

end NegotiatedCapabilities

structure Capabilities.NodupFamilies (c : Capabilities) : Prop where
  addPath : (c.addPathFamilies.map (·.family)).Nodup
  orf : (c.orfEntries.map fun e => (e.family, e.orfType)).Nodup
  llgr : (c.llgrFamilies.map (·.family)).Nodup

/-- The documented meaning of `Capabilities::supportsFamily`. -/
def CapabilityFns.ListsFamilies (F : CapabilityFns) : Prop :=
  ∀ (c : Capabilities) (f : AfiSafi), F.supportsFamily c f = decide (f ∈ c.mpFamilies)

namespace Session

/-! ### The loops -/

theorem mem_addPathFamilies {mine peer : List AddPathFamily} (h : (peer.map (·.family)).Nodup)
    {e : AddPathFamily} :
    e ∈ addPathFamilies mine peer ↔ ∃ a ∈ mine, ∃ b ∈ peer, a.family = b.family ∧
      agreedAddPath a b ≠ 0 ∧ e = ⟨a.family, agreedAddPath a b⟩ := by
  have hloop : addPathFamilies mine peer = mine.filterMap fun a =>
      (peer.find? fun b => a.family = b.family).bind fun b =>
        if agreedAddPath a b ≠ 0 then some (⟨a.family, agreedAddPath a b⟩ : AddPathFamily) else none := by
    unfold addPathFamilies
    congr 1
    ext1 a
    cases peer.find? fun b => decide (a.family = b.family) <;> rfl
  rw [hloop, mem_matched _ mine h]
  simp only [Option.ite_none_right_eq_some, Option.some.injEq, eq_comm (b := e)]

theorem mem_orfEntries {mine peer : List OrfEntry}
    (h : (peer.map fun e => (e.family, e.orfType)).Nodup) {e : OrfEntry} :
    e ∈ orfEntries mine peer ↔ ∃ a ∈ mine, ∃ b ∈ peer,
      (a.family, a.orfType) = (b.family, b.orfType) ∧
        agreedOrf a b ≠ 0 ∧ e = ⟨a.family, a.orfType, agreedOrf a b⟩ := by
  have hloop : orfEntries mine peer = mine.filterMap fun a =>
      (peer.find? fun b => (a.family, a.orfType) = (b.family, b.orfType)).bind fun b =>
        if agreedOrf a b ≠ 0 then
          some (⟨a.family, a.orfType, agreedOrf a b⟩ : OrfEntry) else none := by
    unfold orfEntries
    congr 1
    ext1 a
    simp only [Prod.mk.injEq]
    cases peer.find? fun b => decide (a.family = b.family ∧ a.orfType = b.orfType) <;> rfl
  rw [hloop, mem_matched _ mine h]
  simp only [Option.ite_none_right_eq_some, Option.some.injEq, eq_comm (b := e)]

theorem mem_llgrFamilies {mine peer : List LlgrFamily} (h : (peer.map (·.family)).Nodup)
    {e : LlgrFamily} :
    e ∈ llgrFamilies mine peer ↔ ∃ a ∈ mine, ∃ b ∈ peer, a.family = b.family ∧
      e = ⟨a.family, min a.staleTime b.staleTime, a.flags &&& b.flags⟩ := by
  have hloop : llgrFamilies mine peer = mine.filterMap fun a =>
      (peer.find? fun b => a.family = b.family).bind fun b =>
        some (⟨a.family, min a.staleTime b.staleTime, a.flags &&& b.flags⟩ : LlgrFamily) := by
    unfold llgrFamilies
    congr 1
    ext1 a
    cases peer.find? fun b => decide (a.family = b.family) <;> rfl
  rw [hloop, mem_matched _ mine h]
  simp only [Option.some.injEq, eq_comm (b := e)]

/-! ### Directions -/

theorem or_bits_send (p q : Prop) [Decidable p] [Decidable q] :
    ((if p then 2 else 0) ||| (if q then 1 else 0) : UInt8) &&& 2 ≠ 0 ↔ p := by
  by_cases hp : p <;> by_cases hq : q <;> simp only [hp, hq] <;> decide

theorem or_bits_receive (p q : Prop) [Decidable p] [Decidable q] :
    ((if p then 2 else 0) ||| (if q then 1 else 0) : UInt8) &&& 1 ≠ 0 ↔ q := by
  by_cases hp : p <;> by_cases hq : q <;> simp only [hp, hq] <;> decide

theorem agreedAddPath_send (a b : AddPathFamily) :
    agreedAddPath a b &&& BGP_ADD_PATH_SEND ≠ 0 ↔
      a.sendReceive &&& BGP_ADD_PATH_SEND ≠ 0 ∧ b.sendReceive &&& BGP_ADD_PATH_RECEIVE ≠ 0 :=
  or_bits_send _ _

theorem agreedAddPath_receive (a b : AddPathFamily) :
    agreedAddPath a b &&& BGP_ADD_PATH_RECEIVE ≠ 0 ↔
      a.sendReceive &&& BGP_ADD_PATH_RECEIVE ≠ 0 ∧ b.sendReceive &&& BGP_ADD_PATH_SEND ≠ 0 :=
  or_bits_receive _ _

theorem agreedOrf_send (a b : OrfEntry) :
    agreedOrf a b &&& BGP_ORF_SEND ≠ 0 ↔
      a.sendReceive &&& BGP_ORF_SEND ≠ 0 ∧ b.sendReceive &&& BGP_ORF_RECEIVE ≠ 0 :=
  or_bits_send _ _

theorem agreedOrf_receive (a b : OrfEntry) :
    agreedOrf a b &&& BGP_ORF_RECEIVE ≠ 0 ↔
      a.sendReceive &&& BGP_ORF_RECEIVE ≠ 0 ∧ b.sendReceive &&& BGP_ORF_SEND ≠ 0 :=
  or_bits_receive _ _

theorem exists_mem_addPathFamilies {mine peer : List AddPathFamily}
    (h : (peer.map (·.family)).Nodup) {bit : UInt8} {D : AddPathFamily → AddPathFamily → Prop}
    (hD : ∀ a b, agreedAddPath a b &&& bit ≠ 0 ↔ D a b) (f : AfiSafi) :
    (∃ e ∈ addPathFamilies mine peer, e.family = f ∧ e.sendReceive &&& bit ≠ 0) ↔
      ∃ a ∈ mine, ∃ b ∈ peer, a.family = f ∧ b.family = f ∧ D a b := by
  constructor
  · rintro ⟨e, he, rfl, hbit⟩
    obtain ⟨a, ha, b, hb, hab, -, rfl⟩ := (mem_addPathFamilies h).1 he
    exact ⟨a, ha, b, hb, rfl, hab.symm, (hD a b).1 hbit⟩
  · rintro ⟨a, ha, b, hb, rfl, hba, hd⟩
    have hbit := (hD a b).2 hd
    have hne : agreedAddPath a b ≠ 0 := fun h0 => hbit (by rw [h0]; simp)
    exact ⟨_, (mem_addPathFamilies h).2 ⟨a, ha, b, hb, hba.symm, hne, rfl⟩, rfl, hbit⟩

theorem exists_mem_orfEntries {mine peer : List OrfEntry}
    (h : (peer.map fun e => (e.family, e.orfType)).Nodup) {bit : UInt8}
    {D : OrfEntry → OrfEntry → Prop} (hD : ∀ a b, agreedOrf a b &&& bit ≠ 0 ↔ D a b)
    (f : AfiSafi) (t : UInt8) :
    (∃ e ∈ orfEntries mine peer, (e.family, e.orfType) = (f, t) ∧ e.sendReceive &&& bit ≠ 0) ↔
      ∃ a ∈ mine, ∃ b ∈ peer,
        (a.family, a.orfType) = (f, t) ∧ (b.family, b.orfType) = (f, t) ∧ D a b := by
  constructor
  · rintro ⟨e, he, hk, hbit⟩
    obtain ⟨a, ha, b, hb, hab, -, rfl⟩ := (mem_orfEntries h).1 he
    exact ⟨a, ha, b, hb, hk, hab.symm.trans hk, (hD a b).1 hbit⟩
  · rintro ⟨a, ha, b, hb, hk, hba, hd⟩
    have hbit := (hD a b).2 hd
    have hne : agreedOrf a b ≠ 0 := fun h0 => hbit (by rw [h0]; simp)
    exact ⟨_, (mem_orfEntries h).2 ⟨a, ha, b, hb, hk.trans hba.symm, hne, rfl⟩, hk, hbit⟩

theorem exists_mem_llgrFamilies {mine peer : List LlgrFamily} (h : (peer.map (·.family)).Nodup)
    (f : AfiSafi) (t : UInt32) :
    (∃ e ∈ llgrFamilies mine peer, (e.family, e.staleTime) = (f, t)) ↔
      ∃ a ∈ mine, ∃ b ∈ peer, a.family = f ∧ b.family = f ∧ min a.staleTime b.staleTime = t := by
  constructor
  · rintro ⟨e, he, hk⟩
    obtain ⟨a, ha, b, hb, hab, rfl⟩ := (mem_llgrFamilies h).1 he
    obtain ⟨rfl, rfl⟩ := Prod.mk.inj hk
    exact ⟨a, ha, b, hb, rfl, hab.symm, rfl⟩
  · rintro ⟨a, ha, b, hb, rfl, hba, rfl⟩
    exact ⟨_, (mem_llgrFamilies h).2 ⟨a, ha, b, hb, hba.symm, rfl⟩, rfl⟩

/-! ### Active families -/

section ActiveFamilies
variable {F : CapabilityFns} (hF : F.ListsFamilies) {s : Session}
include hF

theorem mem_activeFamilies {f : AfiSafi} :
    f ∈ activeFamilies F s ↔ (f ∈ s.localCaps.mpFamilies ∧ f ∈ s.peerCaps.mpFamilies) ∨
      (s.peerCaps.mpFamilies = [] ∧ f = ⟨BGP_AFI_IPV4, BGP_SAFI_UNICAST⟩) := by
  have hsupp : F.supportsFamily s.peerCaps f = true ↔ f ∈ s.peerCaps.mpFamilies := by
    rw [hF, decide_eq_true_eq]
  unfold activeFamilies
  rcases hp : s.peerCaps.mpFamilies with _ | ⟨g, gs⟩
  · rw [hp] at hsupp
    simp [hsupp]
  · rw [hp] at hsupp
    simp [hsupp]

theorem activeFamilies_eq_iff {y : Session} (h₁ : y.localCaps = s.peerCaps)
    (h₂ : y.peerCaps = s.localCaps) :
    activeFamilies F s = activeFamilies F y ↔
      (s.localCaps.mpFamilies = [] ↔ s.peerCaps.mpFamilies = []) := by
  constructor
  · intro h
    -- IPv4 unicast is what the side with the empty peer adds
    have hip := Finset.ext_iff.1 h ⟨BGP_AFI_IPV4, BGP_SAFI_UNICAST⟩
    rw [mem_activeFamilies hF, mem_activeFamilies hF, h₁, h₂] at hip
    constructor
    · intro hl
      by_contra hp
      simp [hl, hp] at hip
    · intro hp
      by_contra hl
      simp [hl, hp] at hip
  · intro h
    ext f
    rw [mem_activeFamilies hF, mem_activeFamilies hF, h₁, h₂, h,
      and_comm (a := f ∈ s.localCaps.mpFamilies)]

end ActiveFamilies

/-! ### Agreement -/

theorem exists_swap {α : Type*} {l m : List α} {P : α → α → Prop} :
    (∃ a ∈ l, ∃ b ∈ m, P a b) ↔ ∃ b ∈ m, ∃ a ∈ l, P a b := by
  constructor
  · rintro ⟨a, ha, b, hb, h⟩
    exact ⟨b, hb, a, ha, h⟩
  · rintro ⟨b, hb, a, ha, h⟩
    exact ⟨a, ha, b, hb, h⟩

theorem sends_iff_receives_addPath {mine peer : List AddPathFamily}
    (hm : (mine.map (·.family)).Nodup) (hp : (peer.map (·.family)).Nodup) (f : AfiSafi) :
    (∃ e ∈ addPathFamilies mine peer, e.family = f ∧ e.sendReceive &&& BGP_ADD_PATH_SEND ≠ 0) ↔
      ∃ e ∈ addPathFamilies peer mine,
        e.family = f ∧ e.sendReceive &&& BGP_ADD_PATH_RECEIVE ≠ 0 := by
  rw [exists_mem_addPathFamilies hp agreedAddPath_send,
    exists_mem_addPathFamilies hm agreedAddPath_receive, exists_swap]
  refine exists_congr fun b => and_congr_right fun _ => exists_congr fun a => and_congr_right fun _ => ?_
  tauto

theorem sends_iff_receives_orf {mine peer : List OrfEntry}
    (hm : (mine.map fun e => (e.family, e.orfType)).Nodup)
    (hp : (peer.map fun e => (e.family, e.orfType)).Nodup) (f : AfiSafi) (t : UInt8) :
    (∃ e ∈ orfEntries mine peer,
        (e.family, e.orfType) = (f, t) ∧ e.sendReceive &&& BGP_ORF_SEND ≠ 0) ↔
      ∃ e ∈ orfEntries peer mine,
        (e.family, e.orfType) = (f, t) ∧ e.sendReceive &&& BGP_ORF_RECEIVE ≠ 0 := by
  rw [exists_mem_orfEntries hp agreedOrf_send, exists_mem_orfEntries hm agreedOrf_receive, exists_swap]
  refine exists_congr fun b => and_congr_right fun _ => exists_congr fun a => and_congr_right fun _ => ?_
  tauto

theorem staleTime_min_comm (a b : UInt32) : min a b = min b a := by
  show (if a ≤ b then a else b) = if b ≤ a then b else a
  split_ifs with h₁ h₂ h₂
  · exact UInt32.le_antisymm h₁ h₂
  · rfl
  · rfl
  · exact absurd (UInt32.le_total a b) (by simp [h₁, h₂])

theorem llgr_symm {mine peer : List LlgrFamily} (hm : (mine.map (·.family)).Nodup)
    (hp : (peer.map (·.family)).Nodup) (f : AfiSafi) (t : UInt32) :
    (∃ e ∈ llgrFamilies mine peer, (e.family, e.staleTime) = (f, t)) ↔
      ∃ e ∈ llgrFamilies peer mine, (e.family, e.staleTime) = (f, t) := by
  rw [exists_mem_llgrFamilies hp, exists_mem_llgrFamilies hm, exists_swap]
  refine exists_congr fun b => and_congr_right fun _ => exists_congr fun a => and_congr_right fun _ => ?_
  rw [staleTime_min_comm, and_left_comm]

/-- **Two base sessions that exchange their capabilities agree iff both or neither
    list a family**: the fallback to IPv4 unicast looks at the peer's list only. -/
theorem agree_negotiateCapabilities_iff {F : CapabilityFns} (hF : F.ListsFamilies) {x y : Session}
    {mx my : MultiSession} (hx : x.multiSession = .inr mx) (hy : y.multiSession = .inr my)
    (h₁ : y.localCaps = x.peerCaps) (h₂ : y.peerCaps = x.localCaps)
    (hA : x.localCaps.NodupFamilies) (hB : x.peerCaps.NodupFamilies) :
    (x.negotiateCapabilities F).negotiated.Agree (y.negotiateCapabilities F).negotiated ↔
      (x.localCaps.mpFamilies = [] ↔ x.peerCaps.mpFamilies = []) := by
  have hactive : ∀ {z : Session} {m : MultiSession}, z.multiSession = .inr m →
      (z.negotiateCapabilities F).negotiated.activeFamilies = activeFamilies F z := by
    intro z m hz
    simp only [negotiateCapabilities, hz]
  constructor
  · intro h
    rw [← activeFamilies_eq_iff hF h₁ h₂, ← hactive hx, ← hactive hy]
    exact h.activeFamilies
  · intro h
    exact {
      asn32bit := by simp only [negotiateCapabilities, h₁, h₂, Bool.and_comm]
      routeRefresh := by simp only [negotiateCapabilities, h₁, h₂, Bool.and_comm]
      enhancedRR := by simp only [negotiateCapabilities, h₁, h₂, Bool.and_comm]
      extendedMessage := by simp only [negotiateCapabilities, h₁, h₂, Bool.and_comm]
      gracefulRestart := by simp only [negotiateCapabilities, h₁, h₂, Bool.and_comm]
      activeFamilies := by rw [hactive hx, hactive hy, activeFamilies_eq_iff hF h₁ h₂]; exact h
      addPath_send := by
        intro f
        simp only [negotiateCapabilities, h₁, h₂]
        exact sends_iff_receives_addPath hA.addPath hB.addPath f
      addPath_receive := by
        intro f
        simp only [negotiateCapabilities, h₁, h₂]
        exact (sends_iff_receives_addPath hB.addPath hA.addPath f).symm
      orf_send := by
        intro f t
        simp only [negotiateCapabilities, h₁, h₂]
        exact sends_iff_receives_orf hA.orf hB.orf f t
      orf_receive := by
        intro f t
        simp only [negotiateCapabilities, h₁, h₂]
        exact (sends_iff_receives_orf hB.orf hA.orf f t).symm
      llgr := by
        intro f t
        simp only [negotiateCapabilities, NegotiatedCapabilities.LlgrStaleTime, h₁, h₂,
          Bool.and_comm (x := x.peerCaps.llgr)]
        split_ifs
        · exact llgr_symm hA.llgr hB.llgr f t
        · rfl }

/-- The queries on capabilities, as their documentation describes them. -/
def documentedFns : CapabilityFns where
  supportsFamily c f := decide (f ∈ c.mpFamilies)
  canSendOrf n f t := n.orfEntries.any fun e =>
    e.family = f ∧ e.orfType = t ∧ e.sendReceive &&& BGP_ORF_SEND ≠ 0

/-- One end lists IPv4 and IPv6 unicast and sends path identifiers for IPv4, the other end lists
    IPv6 unicast and accepts them. -/
def sampleSession : Session where
  localCaps := { mpFamilies := [⟨1, 1⟩, ⟨2, 1⟩], addPathFamilies := [⟨⟨1, 1⟩, 2⟩] }
  peerCaps := { mpFamilies := [⟨2, 1⟩], addPathFamilies := [⟨⟨1, 1⟩, 3⟩] }

theorem agree_negotiateCapabilities_iff_sample :
    (sampleSession.negotiateCapabilities documentedFns).negotiated.Agree
      (({ localCaps := sampleSession.peerCaps,
          peerCaps := sampleSession.localCaps } : Session).negotiateCapabilities
        documentedFns).negotiated :=
  (agree_negotiateCapabilities_iff (F := documentedFns) (fun _ _ => rfl) (x := sampleSession)
    (y := { localCaps := sampleSession.peerCaps, peerCaps := sampleSession.localCaps })
    rfl rfl rfl rfl ⟨by decide, by decide, by decide⟩ ⟨by decide, by decide, by decide⟩).2 (by decide)

/-- The end that lists no family has no active one, its peer has IPv4 unicast. -/
theorem not_agree_empty_mpFamilies :
    ¬ (({ localCaps := {}, peerCaps := { mpFamilies := [⟨2, 1⟩] } } : Session).negotiateCapabilities
        documentedFns).negotiated.Agree
      (({ localCaps := { mpFamilies := [⟨2, 1⟩] }, peerCaps := {} } : Session).negotiateCapabilities
        documentedFns).negotiated := by
  intro h
  have hactive := h.activeFamilies
  revert hactive
  decide

end Session

end VirtualRouter.Bgp
