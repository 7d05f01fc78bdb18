/-
  The encoder of UPDATE messages for IPv4 unicast (`BgpTx::buildUpdate<N>`,
  `computeNlriLen`, `appendNlri`).

  A message is the list of what the encoder does for it; its spans are numbered
  from the header.  The two length fields are reserved in front of the
  attributes, and the withdrawn prefixes behind them.  Budgets are computed in
  64 bits.  A round of a loop that takes no prefix is repeated for ever, and so
  the number of prefixes left bounds the rounds of a loop that ends: `none`
  stands for a loop that does not.

  * `updateMessage_eq`: the bytes of a message;
  * `RoomFor`: the attributes leave room for each prefix;
  * `Messages`: how the prefixes are spread over the messages;
  * `buildUpdate_messages`: with room the encoder comes to its end, and spreads
    all prefixes.
-/
import VirtualRouter.Bgp.UpdateNlri

namespace VirtualRouter.Bgp

open Bytes Utils Run

def ipv4uni : AfiSafi := ⟨BGP_AFI_IPV4, BGP_SAFI_UNICAST⟩

/-- What `buildUpdate` reads of the session. -/
structure UpdateSession where
  negotiated : NegotiatedCapabilities
  ebgp : Bool

namespace UpdateSession

variable (ses : UpdateSession)

def maxMsg : ℕ := if ses.negotiated.extendedMessage then 65535 else 4096

def addPath : Bool := ses.negotiated.addPathFamilies.any fun ap => ap.family = ipv4uni

/-- `appendPathAttrs`. -/
def attrSpans (pa : PathAttribute) : List (List UInt8) :=
  (appendPathAttrs ses.negotiated.asn32bit ses.ebgp pa).1

def attrBytes (pa : PathAttribute) : ℕ := (appendPathAttrs ses.negotiated.asn32bit ses.ebgp pa).2

end UpdateSession

/-- A difference of type `size_t`. -/
def sizeSub (a b : ℕ) : ℕ := (a + 2 ^ 64 - b) % 2 ^ 64

/-! ## Prefixes -/

/-- The bytes of a prefix with its path id. -/
def entrySize (addPath : Bool) (n : NlriPath IPv4Prefix) : ℕ :=
  (if addPath then 4 else 0) + nlriEncodedSize n.nlri

/-- The span that `appendNlri` fills for a prefix. -/
def entryBytes (addPath : Bool) (n : NlriPath IPv4Prefix) : List UInt8 :=
  (if addPath then writeU32 n.pathId else []) ++ encodeNlri n.nlri

/-- `computeNlriLen`, from `total` on: the number of prefixes that fit, and their bytes. -/
def computeNlriLen (addPath : Bool) (maxNlriSize : ℕ) : ℕ → List (NlriPath IPv4Prefix) → ℕ × ℕ
  | total, [] => (0, total)
  | total, n :: ns =>
    if total + entrySize addPath n > maxNlriSize then (0, total)
    else
      let r := computeNlriLen addPath maxNlriSize (total + entrySize addPath n) ns
      (r.1 + 1, r.2)

/-! ## Messages -/

/-- One message: the spans reserved for the header and the two lengths, the attributes, the withdrawn
    and the announced prefixes, and then the writes to the first three. -/
def updateActs (addPath : Bool) (attrs : List (List UInt8)) (attrBytes : ℕ)
    (wd : List (NlriPath IPv4Prefix)) (wdBytes : ℕ) (nlri : List (NlriPath IPv4Prefix)) (nlriBytes : ℕ) :
    List TxAct :=
  [.reserve headerSize, .reserve 2, .reserve 2] ++
  spanActs 3 (attrs ++ wd.map (entryBytes addPath) ++ nlri.map (entryBytes addPath)) ++
  [.write 0 0 (buildHeader .UPDATE (UInt16.ofNat (4 + wdBytes + attrBytes + nlriBytes))),
    .write 1 0 (writeU16 (UInt16.ofNat wdBytes)), .write 2 0 (writeU16 (UInt16.ofNat attrBytes))]

def announceRound (ses : UpdateSession) (pa : PathAttribute) (wds ns : List (NlriPath IPv4Prefix)) :
    List TxAct × List (NlriPath IPv4Prefix) × List (NlriPath IPv4Prefix) :=
  let attrBytes := ses.attrBytes pa
  let wd := computeNlriLen ses.addPath (sizeSub (ses.maxMsg - headerSize - 4) attrBytes) 0 wds
  let nlri := computeNlriLen ses.addPath
    (sizeSub (sizeSub (ses.maxMsg - headerSize - 4) attrBytes) wd.2) 0 ns
  (updateActs ses.addPath (ses.attrSpans pa) attrBytes (wds.take wd.1) wd.2 (ns.take nlri.1) nlri.2,
    wds.drop wd.1, ns.drop nlri.1)

def announceLoop (ses : UpdateSession) (pa : PathAttribute) :
    ℕ → List (NlriPath IPv4Prefix) → List (NlriPath IPv4Prefix) → Option (List (List TxAct))
  | fuel, wds, ns =>
    if ns.isEmpty && wds.isEmpty then some []
    else
      match fuel with
      | 0 => none
      | fuel + 1 =>
        let r := announceRound ses pa wds ns
        (announceLoop ses pa fuel r.2.1 r.2.2).map (r.1 :: ·)

def drainLoop (ses : UpdateSession) : ℕ → List (NlriPath IPv4Prefix) → Option (List (List TxAct))
  | fuel, wds =>
    if wds.isEmpty then some []
    else
      match fuel with
      | 0 => none
      | fuel + 1 =>
        let wd := computeNlriLen ses.addPath (ses.maxMsg - headerSize - 4) 0 wds
        (drainLoop ses fuel (wds.drop wd.1)).map
          (updateActs ses.addPath [] 0 (wds.take wd.1) wd.2 [] 0 :: ·)

def announceAllLoop (ses : UpdateSession) : List (Announcement IPv4Prefix) →
    List (NlriPath IPv4Prefix) → Option (List (List TxAct))
  | [], wds => drainLoop ses wds.length wds
  | a :: as, wds => do
    let msgs ← announceLoop ses a.attrs (wds.length + a.nlri.length) wds a.nlri
    let rest ← announceAllLoop ses as []
    return msgs ++ rest

/-- `buildUpdate<N>` for IPv4 unicast: the messages, in the order they are appended. -/
def buildUpdate (ses : UpdateSession) (update : BuildUpdate IPv4Prefix) : Option (List (List UInt8)) :=
  (announceAllLoop ses update.announcements update.withdrawn).map (·.map appended)

/-! ## Sizes -/

/-- The bytes of a list of prefixes. -/
def entriesSize (addPath : Bool) (ns : List (NlriPath IPv4Prefix)) : ℕ := (ns.map (entrySize addPath)).sum

section
variable {addPath : Bool} {budget total : ℕ} {ns : List (NlriPath IPv4Prefix)}

theorem length_encodeNlri (n : IPv4Prefix) : (encodeNlri n).length = nlriEncodedSize n := by
  simp [encodeNlri, writeBytes, nlriEncodedSize, Nat.add_comm]

theorem length_entryBytes (n : NlriPath IPv4Prefix) :
    (entryBytes addPath n).length = entrySize addPath n := by
  cases addPath <;> simp [entryBytes, entrySize, length_encodeNlri]

theorem length_entries (ns : List (NlriPath IPv4Prefix)) :
    (ns.flatMap (entryBytes addPath)).length = entriesSize addPath ns := by
  rw [List.length_flatMap, entriesSize]
  simp only [length_entryBytes]

@[simp] theorem entriesSize_append (ns ms : List (NlriPath IPv4Prefix)) :
    entriesSize addPath (ns ++ ms) = entriesSize addPath ns + entriesSize addPath ms := by
  simp [entriesSize]

theorem entrySize_pos (addPath : Bool) (n : NlriPath IPv4Prefix) : 0 < entrySize addPath n := by
  rw [entrySize, nlriEncodedSize]
  omega

theorem length_le_entriesSize (addPath : Bool) (ns : List (NlriPath IPv4Prefix)) :
    ns.length ≤ entriesSize addPath ns := by
  have hle := List.length_le_sum_of_one_le (ns.map (entrySize addPath)) fun k hk => by
    obtain ⟨n, -, rfl⟩ := List.mem_map.1 hk
    exact entrySize_pos addPath n
  rwa [List.length_map] at hle

theorem computeNlriLen_spec (addPath : Bool) (ns : List (NlriPath IPv4Prefix)) (htotal : total ≤ budget) :
    (computeNlriLen addPath budget total ns).2 =
        total + entriesSize addPath (ns.take (computeNlriLen addPath budget total ns).1) ∧
      (computeNlriLen addPath budget total ns).2 ≤ budget := by
  induction ns generalizing total with
  | nil => exact ⟨rfl, htotal⟩
  | cons n ns ih =>
    rw [computeNlriLen]
    split_ifs with hfits
    · exact ⟨rfl, htotal⟩
    · obtain ⟨hsum, hle⟩ := ih (not_lt.1 hfits)
      refine ⟨?_, hle⟩
      simp only [List.take_succ_cons, entriesSize, List.map_cons, List.sum_cons] at hsum ⊢
      omega

theorem computeNlriLen_pos {n : NlriPath IPv4Prefix} (h : total + entrySize addPath n ≤ budget) :
    0 < (computeNlriLen addPath budget total (n :: ns)).1 := by
  rw [computeNlriLen, if_neg (not_lt.2 h)]
  exact Nat.succ_pos _

theorem sizeSub_of_le {a b : ℕ} (hb : b ≤ a) (ha : a < 2 ^ 64) : sizeSub a b = a - b := by
  rw [sizeSub, Nat.sub_add_comm hb, Nat.add_mod_right, Nat.mod_eq_of_lt (by omega)]

end

/-! ## What the messages contain -/

/-- A message: its attributes, if it was made for an announcement, and its prefixes. -/
structure UpdateContent where
  attrs : Option PathAttribute
  wd : List (NlriPath IPv4Prefix)
  nlri : List (NlriPath IPv4Prefix)

namespace UpdateContent

variable (ses : UpdateSession) (c : UpdateContent)

def attrData : List UInt8 := c.attrs.elim [] fun pa => (ses.attrSpans pa).flatten

def announced : List (NlriPath IPv4Prefix × PathAttribute) :=
  c.attrs.elim [] fun pa => c.nlri.map fun n => (n, pa)

def size : ℕ := 4 + entriesSize ses.addPath c.wd + (c.attrData ses).length + entriesSize ses.addPath c.nlri

def payload : List UInt8 :=
  writeU16 (UInt16.ofNat (entriesSize ses.addPath c.wd)) ++
    writeU16 (UInt16.ofNat (c.attrData ses).length) ++ c.attrData ses ++
    c.wd.flatMap (entryBytes ses.addPath) ++ c.nlri.flatMap (entryBytes ses.addPath)

def bytes : List UInt8 := buildHeader .UPDATE (UInt16.ofNat (c.size ses)) ++ c.payload ses

/-- What the encoder does for the message. -/
def acts : List TxAct :=
  updateActs ses.addPath (c.attrs.elim [] ses.attrSpans) (c.attrData ses).length c.wd
    (entriesSize ses.addPath c.wd) c.nlri (entriesSize ses.addPath c.nlri)

theorem length_payload : (c.payload ses).length = c.size ses := by
  simp only [payload, List.length_append, length_writeU16, length_entries, size]
  omega

/-- **The bytes of a message**, each `reserveSpan(n)` read as `n` bytes appended. -/
theorem appended_acts : appended (c.acts ses) = c.bytes ses := by
  have hfirst : runFrom appendStep [] [.reserve headerSize, .reserve 2, .reserve 2] =
      [List.replicate headerSize 0, [0, 0], [0, 0]] := rfl
  obtain ⟨spans, hspans⟩ : ∃ spans, spans = c.attrs.elim [] ses.attrSpans ++
      c.wd.map (entryBytes ses.addPath) ++ c.nlri.map (entryBytes ses.addPath) := ⟨_, rfl⟩
  have hmid : runFrom appendStep [List.replicate headerSize 0, [0, 0], [0, 0]] (spanActs 3 spans) =
      [List.replicate headerSize 0, [0, 0], [0, 0]] ++ spans := runFrom_spanActs spans _
  have hflat : spans.flatten = c.attrData ses ++ c.wd.flatMap (entryBytes ses.addPath) ++
      c.nlri.flatMap (entryBytes ses.addPath) := by
    rw [hspans, List.flatten_append, List.flatten_append, List.flatMap_def, List.flatMap_def, attrData]
    cases c.attrs with
    | none => simp only [Option.elim_none, List.flatten_nil]
    | some pa => simp only [Option.elim_some]
  have hmarker : BGP_MARKER.length = 16 := rfl
  obtain ⟨header, hheader⟩ : ∃ header, header = buildHeader .UPDATE (UInt16.ofNat (c.size ses)) := ⟨_, rfl⟩
  have hlen : header.length = headerSize := by
    simp only [hheader, buildHeader, List.length_append, length_writeU16, hmarker, headerSize,
      List.length_singleton]
  have hover (span bytes : List UInt8) (h : bytes.length = span.length) :
      (TxBlock.overwrite span 0 bytes).take span.length = bytes := by
    rw [TxBlock.overwrite, List.take_zero, List.nil_append, ← h, List.take_left]
  rw [acts, updateActs, appended, runFrom_append, runFrom_append, hfirst, ← hspans, hmid]
  have hsize : 4 + entriesSize ses.addPath c.wd + (c.attrData ses).length +
      entriesSize ses.addPath c.nlri = c.size ses := rfl
  simp only [runFrom_cons, runFrom_nil, appendStep, List.cons_append, List.nil_append,
    List.modify_zero_cons, List.modify_succ_cons, hsize, ← hheader]
  rw [hover _ header (by rw [hlen, List.length_replicate]), hover _ (writeU16 _) (length_writeU16 _),
    hover _ (writeU16 _) (length_writeU16 _), bytes, payload, ← hheader]
  simp only [List.flatten_cons, hflat, List.append_assoc]

end UpdateContent

/-! ## The loops -/

/-- The attributes of every announcement leave room for each prefix that may be sent with them. -/
def RoomFor (ses : UpdateSession) (update : BuildUpdate IPv4Prefix) : Prop :=
  ∀ a ∈ update.announcements, ∀ n ∈ a.nlri ++ update.withdrawn,
    headerSize + 4 + ses.attrBytes a.attrs + entrySize ses.addPath n ≤ ses.maxMsg

/-- The contents of the messages for one announcement. -/
structure Spread (ses : UpdateSession) (attrs : Option PathAttribute)
    (wds ns : List (NlriPath IPv4Prefix)) (cs : List UpdateContent) : Prop where
  attrs_eq : ∀ c ∈ cs, c.attrs = attrs
  fits : ∀ c ∈ cs, headerSize + c.size ses ≤ ses.maxMsg
  nonempty : ∀ c ∈ cs, c.wd ++ c.nlri ≠ []
  wd_eq : cs.flatMap UpdateContent.wd = wds
  nlri_eq : cs.flatMap UpdateContent.nlri = ns

section
variable {ses : UpdateSession} {pa : PathAttribute} {wds ns : List (NlriPath IPv4Prefix)}

theorem maxMsg_bounds (ses : UpdateSession) : 4096 ≤ ses.maxMsg ∧ ses.maxMsg ≤ 65535 := by
  rw [UpdateSession.maxMsg]
  split <;> simp

theorem attrBytes_eq (ses : UpdateSession) (pa : PathAttribute) :
    ses.attrBytes pa = (ses.attrSpans pa).flatten.length := attrSize_eq _ _ _

theorem Spread.cons {attrs : Option PathAttribute} {c : UpdateContent} {cs : List UpdateContent}
    {wds' ns' : List (NlriPath IPv4Prefix)} (hc : c.attrs = attrs)
    (hfits : headerSize + c.size ses ≤ ses.maxMsg) (hne : c.wd ++ c.nlri ≠ [])
    (hwds : c.wd ++ wds' = wds) (hns : c.nlri ++ ns' = ns) (h : Spread ses attrs wds' ns' cs) :
    Spread ses attrs wds ns (c :: cs) where
  attrs_eq := List.forall_mem_cons.2 ⟨hc, h.attrs_eq⟩
  fits := List.forall_mem_cons.2 ⟨hfits, h.fits⟩
  nonempty := List.forall_mem_cons.2 ⟨hne, h.nonempty⟩
  wd_eq := by rw [List.flatMap_cons, h.wd_eq, hwds]
  nlri_eq := by rw [List.flatMap_cons, h.nlri_eq, hns]

theorem Spread.nil (attrs : Option PathAttribute) : Spread ses attrs [] [] [] :=
  ⟨by simp, by simp, by simp, rfl, rfl⟩

/-- **One round** for an announcement, with room: a message within the limit that takes a prefix. -/
theorem announceRound_spec (hne : wds ++ ns ≠ [])
    (hroom : ∀ n ∈ wds ++ ns, headerSize + 4 + ses.attrBytes pa + entrySize ses.addPath n ≤ ses.maxMsg) :
    ∃ c : UpdateContent, (announceRound ses pa wds ns).1 = c.acts ses ∧ c.attrs = some pa ∧
      headerSize + c.size ses ≤ ses.maxMsg ∧ c.wd ++ c.nlri ≠ [] ∧
      c.wd ++ (announceRound ses pa wds ns).2.1 = wds ∧ c.nlri ++ (announceRound ses pa wds ns).2.2 = ns := by
  have hmax := maxMsg_bounds ses
  have hhead : headerSize = 19 := rfl
  obtain ⟨n₀, hn₀⟩ := List.exists_mem_of_ne_nil _ hne
  have hpos := entrySize_pos ses.addPath n₀
  have hroom₀ := hroom n₀ hn₀
  obtain ⟨budget, hbudget⟩ : ∃ b, b = ses.maxMsg - headerSize - 4 - ses.attrBytes pa := ⟨_, rfl⟩
  have hsub : sizeSub (ses.maxMsg - headerSize - 4) (ses.attrBytes pa) = budget := by
    rw [sizeSub_of_le (by omega) (by omega), hbudget]
  obtain ⟨wd, hwd⟩ : ∃ r, r = computeNlriLen ses.addPath budget 0 wds := ⟨_, rfl⟩
  obtain ⟨hwdsum, hwdle⟩ := computeNlriLen_spec ses.addPath wds (Nat.zero_le budget)
  rw [← hwd, Nat.zero_add] at hwdsum
  rw [← hwd] at hwdle
  have hsub' : sizeSub budget wd.2 = budget - wd.2 := sizeSub_of_le hwdle (by omega)
  obtain ⟨nlri, hnlri⟩ : ∃ r, r = computeNlriLen ses.addPath (budget - wd.2) 0 ns := ⟨_, rfl⟩
  obtain ⟨hnsum, hnle⟩ := computeNlriLen_spec ses.addPath ns (Nat.zero_le (budget - wd.2))
  rw [← hnlri, Nat.zero_add] at hnsum
  rw [← hnlri] at hnle
  have hround : announceRound ses pa wds ns =
      (updateActs ses.addPath (ses.attrSpans pa) (ses.attrBytes pa) (wds.take wd.1) wd.2
        (ns.take nlri.1) nlri.2, wds.drop wd.1, ns.drop nlri.1) := by
    simp only [announceRound, hsub, ← hwd, hsub', ← hnlri]
  rw [hround]
  refine ⟨⟨some pa, wds.take wd.1, ns.take nlri.1⟩, ?_, rfl, ?_, ?_, List.take_append_drop _ _,
    List.take_append_drop _ _⟩
  · simp only [UpdateContent.acts, UpdateContent.attrData, Option.elim_some, attrBytes_eq, hwdsum, hnsum]
  · simp only [UpdateContent.size, UpdateContent.attrData, Option.elim_some, ← attrBytes_eq, ← hwdsum,
      ← hnsum]
    omega
  · -- the first prefix to withdraw is taken, and without one the first to announce
    intro hnil
    obtain ⟨hwnil, hnnil⟩ := List.append_eq_nil_iff.1 hnil
    cases wds with
    | cons n wds =>
      have htaken : 0 < wd.1 := by
        rw [hwd]
        refine computeNlriLen_pos ?_
        have := hroom n (by simp)
        omega
      rw [List.take_eq_nil_iff] at hwnil
      rcases hwnil with h | h
      · omega
      · cases h
    | nil =>
      have hzero : wd.2 = 0 := by
        rw [hwd]
        rfl
      cases ns with
      | nil => exact hne rfl
      | cons n ns =>
        have htaken : 0 < nlri.1 := by
          rw [hnlri]
          refine computeNlriLen_pos ?_
          have := hroom n (by simp)
          omega
        rw [List.take_eq_nil_iff] at hnnil
        rcases hnnil with h | h
        · omega
        · cases h

theorem announceLoop_spec (ses : UpdateSession) (pa : PathAttribute) {fuel : ℕ}
    (hfuel : wds.length + ns.length ≤ fuel)
    (hroom : ∀ n ∈ wds ++ ns, headerSize + 4 + ses.attrBytes pa + entrySize ses.addPath n ≤ ses.maxMsg) :
    ∃ cs : List UpdateContent, announceLoop ses pa fuel wds ns = some (cs.map (·.acts ses)) ∧
      Spread ses (some pa) wds ns cs := by
  induction fuel generalizing wds ns with
  | zero =>
    obtain ⟨hw, hn⟩ : wds = [] ∧ ns = [] := by
      constructor <;> apply List.eq_nil_of_length_eq_zero <;> omega
    subst hw hn
    exact ⟨[], rfl, .nil _⟩
  | succ fuel ih =>
    by_cases hdone : wds ++ ns = []
    · obtain ⟨rfl, rfl⟩ := List.append_eq_nil_iff.1 hdone
      exact ⟨[], rfl, .nil _⟩
    · obtain ⟨c, hacts, hattrs, hfits, hne, hwd, hnlri⟩ := announceRound_spec hdone hroom
      obtain ⟨wds', hwds'⟩ : ∃ l, l = (announceRound ses pa wds ns).2.1 := ⟨_, rfl⟩
      obtain ⟨ns', hns'⟩ : ∃ l, l = (announceRound ses pa wds ns).2.2 := ⟨_, rfl⟩
      rw [← hwds'] at hwd
      rw [← hns'] at hnlri
      have hlen : 0 < (c.wd ++ c.nlri).length := List.length_pos_iff.2 hne
      have hleft : wds'.length + ns'.length ≤ fuel := by
        rw [List.length_append] at hlen
        rw [← hwd, ← hnlri, List.length_append, List.length_append] at hfuel
        omega
      obtain ⟨cs, hcs, hspread⟩ := ih hleft fun n hn => hroom n (by
        rw [← hwd, ← hnlri]
        rcases List.mem_append.1 hn with h | h <;> simp [h])
      refine ⟨c :: cs, ?_, .cons hattrs hfits hne hwd hnlri hspread⟩
      have hnot : ¬ ((ns.isEmpty && wds.isEmpty) = true) := by
        intro h
        rw [Bool.and_eq_true, List.isEmpty_iff, List.isEmpty_iff] at h
        exact hdone (by rw [h.1, h.2]; rfl)
      rw [announceLoop, if_neg hnot]
      simp only [← hwds', ← hns', hcs, hacts, Option.map_some, List.map_cons]

theorem entrySize_le (addPath : Bool) (n : NlriPath IPv4Prefix) : entrySize addPath n ≤ 37 := by
  have hlen := n.nlri.prefixLength.toNat_lt
  rw [entrySize, nlriEncodedSize, prefixBytes]
  split <;> omega

theorem drainLoop_spec (ses : UpdateSession) {fuel : ℕ} (hfuel : wds.length ≤ fuel) :
    ∃ cs : List UpdateContent, drainLoop ses fuel wds = some (cs.map (·.acts ses)) ∧
      Spread ses none wds [] cs := by
  have hmax := maxMsg_bounds ses
  have hhead : headerSize = 19 := rfl
  induction fuel generalizing wds with
  | zero =>
    obtain rfl : wds = [] := List.eq_nil_of_length_eq_zero (by omega)
    exact ⟨[], rfl, .nil _⟩
  | succ fuel ih =>
    cases wds with
    | nil => exact ⟨[], rfl, .nil _⟩
    | cons n wds =>
      obtain ⟨wd, hwd⟩ : ∃ r, r = computeNlriLen ses.addPath (ses.maxMsg - headerSize - 4) 0 (n :: wds) :=
        ⟨_, rfl⟩
      obtain ⟨hsum, hle⟩ := computeNlriLen_spec ses.addPath (n :: wds)
        (Nat.zero_le (ses.maxMsg - headerSize - 4))
      rw [← hwd, Nat.zero_add] at hsum
      rw [← hwd] at hle
      have htaken : 0 < wd.1 := by
        rw [hwd]
        refine computeNlriLen_pos ?_
        have := entrySize_le ses.addPath n
        omega
      have hleft : ((n :: wds).drop wd.1).length ≤ fuel := by
        rw [List.length_drop]
        omega
      obtain ⟨cs, hcs, hspread⟩ := ih hleft
      have hacts : updateActs ses.addPath [] 0 ((n :: wds).take wd.1) wd.2 [] 0 =
          (⟨none, (n :: wds).take wd.1, []⟩ : UpdateContent).acts ses := by
        rw [hsum]
        rfl
      refine ⟨⟨none, (n :: wds).take wd.1, []⟩ :: cs, ?_,
        .cons rfl ?_ ?_ (List.take_append_drop _ _) rfl hspread⟩
      · rw [drainLoop, if_neg (by simp)]
        simp only [← hwd, hcs, hacts, Option.map_some, List.map_cons]
      · simp only [UpdateContent.size, UpdateContent.attrData, Option.elim_none, List.length_nil, ← hsum]
        simp only [entriesSize, List.map_nil, List.sum_nil]
        omega
      · rw [List.append_nil, Ne, List.take_eq_nil_iff]
        rintro (h | h)
        · omega
        · cases h

/-- How the prefixes of an update are spread over its messages. -/
structure Messages (ses : UpdateSession) (update : BuildUpdate IPv4Prefix) (cs : List UpdateContent) :
    Prop where
  fits : ∀ c ∈ cs, headerSize + c.size ses ≤ ses.maxMsg
  nonempty : ∀ c ∈ cs, c.wd ++ c.nlri ≠ []
  wd_eq : cs.flatMap UpdateContent.wd = update.withdrawn
  nlri_eq : cs.flatMap UpdateContent.announced =
    update.announcements.flatMap fun a => a.nlri.map fun n => (n, a.attrs)
  drained : update.announcements = [] → ∀ c ∈ cs, c.attrs = none ∧ c.nlri = []
  announced : update.announcements ≠ [] → ∀ c ∈ cs, ∃ a ∈ update.announcements, c.attrs = some a.attrs

theorem Spread.announced {cs : List UpdateContent} (h : Spread ses (some pa) wds ns cs) :
    cs.flatMap UpdateContent.announced = ns.map fun n => (n, pa) := by
  have hcongr : ∀ c ∈ cs, c.announced = c.nlri.map fun n => (n, pa) := by
    intro c hc
    rw [UpdateContent.announced, h.attrs_eq c hc, Option.elim_some]
  rw [← h.nlri_eq, List.map_flatMap]
  exact List.flatMap_congr hcongr

/-- **The encoder comes to its end**, and spreads all prefixes. -/
theorem buildUpdate_messages {update : BuildUpdate IPv4Prefix} (hroom : RoomFor ses update) :
    ∃ cs : List UpdateContent, buildUpdate ses update = some (cs.map (·.bytes ses)) ∧
      Messages ses update cs := by
  have hloop : ∀ (as : List (Announcement IPv4Prefix)) (wds : List (NlriPath IPv4Prefix)),
      RoomFor ses ⟨wds, as⟩ → ∃ cs : List UpdateContent,
        announceAllLoop ses as wds = some (cs.map (·.acts ses)) ∧ Messages ses ⟨wds, as⟩ cs := by
    intro as
    induction as with
    | nil =>
      intro wds _
      obtain ⟨cs, hcs, h⟩ := drainLoop_spec ses (le_refl wds.length)
      refine ⟨cs, hcs, h.fits, h.nonempty, h.wd_eq, ?_, fun _ c hc => ⟨h.attrs_eq c hc, ?_⟩,
        fun hne => absurd rfl hne⟩
      · refine List.flatMap_eq_nil_iff.2 fun c hc => ?_
        rw [UpdateContent.announced, h.attrs_eq c hc, Option.elim_none]
      · exact List.flatMap_eq_nil_iff.1 h.nlri_eq c hc
    | cons a as ih =>
      intro wds hroom
      obtain ⟨cs, hcs, h⟩ := announceLoop_spec ses a.attrs
        (le_refl (wds.length + a.nlri.length)) fun n hn => hroom a (.head _) n (by
          rcases List.mem_append.1 hn with h | h <;> simp [h])
      obtain ⟨ds, hds, h'⟩ := ih [] fun b hb n hn => hroom b (.tail _ hb) n (by
        rw [List.append_nil] at hn
        simp [hn])
      refine ⟨cs ++ ds, ?_, ?_⟩
      · simp [announceAllLoop, hcs, hds]
      · refine ⟨?_, ?_, ?_, ?_, fun hnil => absurd hnil (List.cons_ne_nil _ _), fun _ => ?_⟩
        · exact List.forall_mem_append.2 ⟨h.fits, h'.fits⟩
        · exact List.forall_mem_append.2 ⟨h.nonempty, h'.nonempty⟩
        · rw [List.flatMap_append, h.wd_eq, h'.wd_eq, List.append_nil]
        · rw [List.flatMap_append, h.announced, h'.nlri_eq]
          rfl
        · refine List.forall_mem_append.2 ⟨fun c hc => ⟨a, .head _, h.attrs_eq c hc⟩, fun c hc => ?_⟩
          by_cases has : as = []
          · -- nothing is left to drain
            have hnone := List.append_eq_nil_iff.2 ⟨List.flatMap_eq_nil_iff.1 h'.wd_eq c hc,
              (h'.drained has c hc).2⟩
            exact absurd hnone (h'.nonempty c hc)
          · obtain ⟨b, hb, hattrs⟩ := h'.announced has c hc
            exact ⟨b, .tail _ hb, hattrs⟩
  obtain ⟨cs, hcs, h⟩ := hloop update.announcements update.withdrawn hroom
  refine ⟨cs, ?_, h⟩
  rw [buildUpdate, hcs, Option.map_some, List.map_map]
  exact congrArg some (List.map_congr_left fun c _ => c.appended_acts ses)

end

end VirtualRouter.Bgp
