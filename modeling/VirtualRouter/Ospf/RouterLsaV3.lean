/-
  The body of the OSPFv3 router LSA (`ospf/ospfv3/database/RouterLsaV3.hpp`).

  `build` reads the packet `l` from `pos` on, `buildBody` writes the buffer `buf`.

  * `blocks`: the bytes of links, each with the byte that is reserved in it;
  * `exists_blocks`: each body is options, blocks, and a rest of less than a block;
  * `build_blocks`: `build` reads the links of the blocks, and refuses a body with a rest;
  * `RoundTrips`, `Reproduces`: `buildBody` and `build` are inverse to each other, up to
    the reserved bytes.
-/
import VirtualRouter.Ospf.LsaBodyV2

namespace VirtualRouter.Ospf

open Bytes Utils LsaBodyV2

structure RouterLsaV3 where
  options : UInt32
  links : List RouterLinkV3
  deriving DecidableEq, Repr

namespace RouterLsaV3

/-- The loop of `build`, up to the offset where less than a link is left. -/
def buildLinks (l : List UInt8) (pos : ℕ) (len : UInt16) :
    (fuel off : ℕ) → Except Stop (List RouterLinkV3 × ℕ)
  | 0, _ => .error .rounds
  | fuel + 1, off => do
    if off + 16 ≤ len.toNat then
      let type ← readPacket l (pos + off) 1 (· 0)
      let metric ← readPacket l (pos + off + 2) 2 readU16
      let interfaceId ← readPacket l (pos + off + 4) 4 readU32
      let neighborInterfaceId ← readPacket l (pos + off + 8) 4 readU32
      let neighborRouterId ← readPacket l (pos + off + 12) 4 readU32
      let (links, off) ← buildLinks l pos len fuel (off + 16)
      return ({ type, metric, interfaceId, neighborInterfaceId, neighborRouterId } :: links, off)
    else .ok ([], off)

def build (l : List UInt8) (pos : ℕ) (len : UInt16) : Except Stop RouterLsaV3 := do
  if len.toNat < 4 then .error .refused
  else
    let options ← readPacket l pos 4 readU32
    let (links, off) ← buildLinks l pos len l.length 4
    if off ≠ len.toNat then .error .refused
    else return { options, links }

def storeLinks : List RouterLinkV3 → (off : ℕ) → (buf : List UInt8) → Except Stop (List UInt8)
  | [], _, buf => .ok buf
  | link :: links, off, buf => do
    let buf ← store buf off [link.type]
    let buf ← store buf (off + 1) [0]
    let buf ← store buf (off + 2) (writeU16 link.metric)
    let buf ← store buf (off + 4) (writeU32 link.interfaceId)
    let buf ← store buf (off + 8) (writeU32 link.neighborInterfaceId)
    let buf ← store buf (off + 12) (writeU32 link.neighborRouterId)
    storeLinks links (off + 16) buf

def buildBody (lsa : RouterLsaV3) (buf : List UInt8) (len : UInt16) : Except Stop (List UInt8) := do
  if len.toNat ≠ 4 + 16 * lsa.links.length then .error .refused
  else
    let buf ← store buf 0 (writeU32 lsa.options)
    storeLinks lsa.links 4 buf

def size (lsa : RouterLsaV3) : UInt16 := 4 + UInt16.ofNat (16 * lsa.links.length)

/-! ## What a round trip is -/

/-- `buildBody` writes `size` bytes, and `build` reads them back. -/
def RoundTrips (lsa : RouterLsaV3) : Prop :=
  ∃ bytes : List UInt8, bytes.length = lsa.size.toNat ∧
    ∀ buf : List UInt8, lsa.size.toNat ≤ buf.length →
      lsa.buildBody buf lsa.size = .ok (written bytes buf) ∧
        build (written bytes buf) 0 lsa.size = .ok lsa

/-- A body of `len` bytes is parsed if it is made of links, refused if not, and what was parsed
    is written as the body was, but for the second byte of each link. -/
def Reproduces (body : List UInt8) (len : UInt16) : Prop :=
  ∀ (l : List UInt8) (pos : ℕ) (rest : List UInt8), l.drop pos = body ++ rest →
    ((∃ lsa, build l pos len = .ok lsa) ↔ ∃ n, body.length = 4 + 16 * n) ∧
    ((¬ ∃ n, body.length = 4 + 16 * n) → build l pos len = .error .refused) ∧
    ∀ lsa, build l pos len = .ok lsa → ∃ bytes : List UInt8, bytes.length = body.length ∧
      (∀ i, i % 16 ≠ 5 → bytes[i]? = body[i]?) ∧
      ∀ buf : List UInt8, body.length ≤ buf.length →
        lsa.buildBody buf len = .ok (written bytes buf)

/-! ## Blocks -/

/-- The sixteen bytes of a link, with its reserved byte. -/
def block (r : UInt8) (link : RouterLinkV3) : List UInt8 :=
  [link.type] ++ [r] ++ writeU16 link.metric ++ writeU32 link.interfaceId ++
    writeU32 link.neighborInterfaceId ++ writeU32 link.neighborRouterId

def blocks (ls : List (UInt8 × RouterLinkV3)) : List UInt8 := ls.flatMap fun p => block p.1 p.2

variable {l tail buf : List UInt8} {pos off fuel : ℕ} {len : UInt16}
  {ls : List (UInt8 × RouterLinkV3)} {links : List RouterLinkV3}

@[simp] theorem length_block (r : UInt8) (link : RouterLinkV3) : (block r link).length = 16 := rfl

@[simp] theorem length_blocks (ls : List (UInt8 × RouterLinkV3)) :
    (blocks ls).length = 16 * ls.length := by
  simp [blocks, Nat.mul_comm]

theorem blocks_cons (p : UInt8 × RouterLinkV3) (ls : List (UInt8 × RouterLinkV3)) :
    blocks (p :: ls) = block p.1 p.2 ++ blocks ls := List.flatMap_cons

theorem exists_block (c : List UInt8) (hc : c.length = 16) : ∃ r link, c = block r link := by
  match c, hc with
  | [b0, b1, b2, b3, b4, b5, b6, b7, b8, b9, b10, b11, b12, b13, b14, b15], _ =>
    refine ⟨b1, ⟨b0, readU16 (ofList [b2, b3]), readU32 (ofList [b4, b5, b6, b7]),
      readU32 (ofList [b8, b9, b10, b11]), readU32 (ofList [b12, b13, b14, b15])⟩, ?_⟩
    rw [block, writeU16_readU16, writeU32_readU32, writeU32_readU32, writeU32_readU32]
    rfl

theorem exists_blocks (n : ℕ) (b : List UInt8) (hn : b.length / 16 = n) :
    ∃ ls tail, b = blocks ls ++ tail ∧ tail.length < 16 ∧ ls.length = n := by
  induction n generalizing b with
  | zero => exact ⟨[], b, rfl, by omega, rfl⟩
  | succ n ih =>
    obtain ⟨r, link, hblock⟩ := exists_block (b.take 16) (by rw [List.length_take]; omega)
    obtain ⟨ls, tail, hrest, htail, hlen⟩ := ih (b.drop 16) (by rw [List.length_drop]; omega)
    refine ⟨(r, link) :: ls, tail, ?_, htail, by rw [List.length_cons, hlen]⟩
    rw [blocks_cons, List.append_assoc, ← hblock, ← hrest, List.take_append_drop]

theorem exists_body (b : List UInt8) (h : 4 ≤ b.length) :
    ∃ options ls tail, b = writeU32 options ++ (blocks ls ++ tail) ∧ tail.length < 16 := by
  obtain ⟨ls, tail, hrest, htail, -⟩ := exists_blocks _ (b.drop 4) rfl
  match b, h with
  | b0 :: b1 :: b2 :: b3 :: rest, _ =>
    refine ⟨readU32 (ofList [b0, b1, b2, b3]), ls, tail, ?_, htail⟩
    rw [writeU32_readU32, ← hrest]
    rfl

/-! ## Parsing -/

theorem buildLinks_block {r : UInt8} {link : RouterLinkV3} {rest : List UInt8}
    (h : l.drop (pos + off) = block r link ++ rest) (hlen : off + 16 ≤ len.toNat) :
    buildLinks l pos len (fuel + 1) off = (do
      let (links, off) ← buildLinks l pos len fuel (off + 16)
      return (link :: links, off)) := by
  have htype : readPacket l (pos + off) 1 (· 0) = .ok link.type := readPacket_byte h
  have hbehind : l.drop (pos + off + 2) = writeU16 link.metric ++ (writeU32 link.interfaceId ++
      (writeU32 link.neighborInterfaceId ++ (writeU32 link.neighborRouterId ++ rest))) := by
    rw [← List.drop_drop, h]
    rfl
  have hinterface : l.drop (pos + off + 4) = _ := drop_of_drop hbehind
  have hneighbor : l.drop (pos + off + 8) = _ := drop_of_drop hinterface
  have hrouter : l.drop (pos + off + 12) = _ := drop_of_drop hneighbor
  rw [buildLinks, if_pos hlen, htype, ok_bind, readPacket_u16 hbehind, ok_bind,
    readPacket_u32 hinterface, ok_bind, readPacket_u32 hneighbor, ok_bind,
    readPacket_u32 hrouter, ok_bind]

theorem buildLinks_blocks {rest : List UInt8} (h : l.drop (pos + off) = blocks ls ++ rest)
    (hlen : off + 16 * ls.length ≤ len.toNat) (hend : len.toNat < off + 16 * ls.length + 16)
    (hfuel : ls.length < fuel) :
    buildLinks l pos len fuel off = .ok (ls.map Prod.snd, off + 16 * ls.length) := by
  induction ls generalizing off fuel with
  | nil =>
    obtain ⟨fuel, rfl⟩ := Nat.exists_eq_succ_of_ne_zero (Nat.ne_of_gt hfuel)
    rw [buildLinks, if_neg (by simp at hend; omega)]
    rfl
  | cons p ls ih =>
    rw [List.length_cons] at hlen hend hfuel
    obtain ⟨fuel, rfl⟩ := Nat.exists_eq_succ_of_ne_zero (Nat.ne_of_gt (Nat.zero_lt_of_lt hfuel))
    rw [blocks_cons, List.append_assoc] at h
    have hnext : l.drop (pos + (off + 16)) = blocks ls ++ rest := by
      have hdrop := drop_of_drop h
      rwa [length_block, Nat.add_assoc] at hdrop
    have hrest : buildLinks l pos len fuel (off + 16) =
        .ok (ls.map Prod.snd, off + 16 + 16 * ls.length) :=
      ih hnext (by omega) (by omega) (by omega)
    rw [buildLinks_block h (by omega), hrest, ok_bind, List.map_cons, List.length_cons]
    show Except.ok _ = Except.ok _
    rw [show off + 16 + 16 * ls.length = off + 16 * (ls.length + 1) by omega]

theorem build_blocks {options : UInt32} {rest : List UInt8}
    (h : l.drop pos = writeU32 options ++ (blocks ls ++ (tail ++ rest)))
    (hlen : len.toNat = 4 + 16 * ls.length + tail.length) (htail : tail.length < 16) :
    build l pos len =
      if tail = [] then .ok { options, links := ls.map Prod.snd } else .error .refused := by
  have hlinks : l.drop (pos + 4) = blocks ls ++ (tail ++ rest) := drop_of_drop h
  have hfuel : ls.length < l.length := by
    have hle := congrArg List.length h
    simp only [List.length_drop, List.length_append, length_writeU32, length_blocks] at hle
    omega
  rw [build, if_neg (by omega), readPacket_u32 h, ok_bind,
    buildLinks_blocks hlinks (by omega) (by omega) hfuel, ok_bind]
  cases tail with
  | nil =>
    rw [List.length_nil, Nat.add_zero] at hlen
    simp [hlen]
    rfl
  | cons b tail =>
    rw [List.length_cons] at hlen
    have hoff : 4 + 16 * ls.length ≠ len.toNat := by omega
    simp [hoff]

/-! ## Serialising -/

def wire (lsa : RouterLsaV3) : List UInt8 :=
  writeU32 lsa.options ++ blocks (lsa.links.map fun link => (0, link))

theorem length_wire (lsa : RouterLsaV3) : lsa.wire.length = 4 + 16 * lsa.links.length := by
  simp [wire]

theorem storeLinks_next {w : List UInt8} (hoff : off = w.length)
    (h : w.length + 16 * links.length ≤ buf.length) :
    storeLinks links off (written w buf) =
      .ok (written (w ++ blocks (links.map fun link => (0, link))) buf) := by
  induction links generalizing w off with
  | nil => simp [storeLinks, blocks]
  | cons link links ih =>
    rw [List.length_cons] at h
    rw [storeLinks, store_next hoff (by simp; omega), ok_bind,
      store_next (by simp [hoff]) (by simp; omega), ok_bind,
      store_next (by simp [hoff]) (by simp; omega), ok_bind,
      store_next (by simp [hoff]) (by simp; omega), ok_bind,
      store_next (by simp [hoff]) (by simp; omega), ok_bind,
      store_next (by simp [hoff]) (by simp; omega), ok_bind,
      ih (by simp [hoff]) (by simp; omega), List.map_cons, blocks_cons, block]
    simp only [List.append_assoc]

theorem buildBody_wire {lsa : RouterLsaV3} (hlen : len.toNat = 4 + 16 * lsa.links.length)
    (hbuf : len.toNat ≤ buf.length) : lsa.buildBody buf len = .ok (written lsa.wire buf) := by
  rw [buildBody, if_neg (not_not_intro hlen), store_zero (by simp; omega), ok_bind,
    storeLinks_next (by rfl) (by simp; omega), wire]

/-! ## Round trips -/

theorem toNat_size {lsa : RouterLsaV3} (h : lsa.links.length ≤ 4095) :
    lsa.size.toNat = 4 + 16 * lsa.links.length := by
  rw [size, UInt16.toNat_add, UInt16.toNat_ofNat']
  show (4 + 16 * lsa.links.length % 2 ^ 16) % 2 ^ 16 = _
  omega

theorem roundTrips_of_le {lsa : RouterLsaV3} (h : lsa.links.length ≤ 4095) : lsa.RoundTrips := by
  have hsize := toNat_size h
  refine ⟨lsa.wire, by rw [length_wire, hsize], ?_⟩
  intro buf hbuf
  refine ⟨buildBody_wire hsize hbuf, ?_⟩
  have hdrop : (written lsa.wire buf).drop 0 = writeU32 lsa.options ++
      (blocks (lsa.links.map fun link => (0, link)) ++ ([] ++ buf.drop lsa.wire.length)) := by
    simp [written, wire]
  rw [build_blocks hdrop (by simp [hsize]) (by simp), if_pos rfl, List.map_map]
  simp

theorem getElem_blocks (ls : List (UInt8 × RouterLinkV3)) (i : ℕ) (hi : i % 16 ≠ 1) :
    (blocks ((ls.map Prod.snd).map fun link => (0, link)))[i]? = (blocks ls)[i]? := by
  induction ls generalizing i with
  | nil => rfl
  | cons p ls ih =>
    rw [List.map_cons, List.map_cons, blocks_cons, blocks_cons]
    by_cases hfirst : i < 16
    · rw [List.getElem?_append_left (by simpa using hfirst),
        List.getElem?_append_left (by simpa using hfirst)]
      match i, hi with
      | 0, _ => rfl
      | i + 2, _ => rfl
    · rw [List.getElem?_append_right (by simpa using hfirst),
        List.getElem?_append_right (by simpa using hfirst), length_block, length_block]
      exact ih _ (by omega)

theorem reproduces (body : List UInt8) (hlen : len.toNat = body.length) : Reproduces body len := by
  intro l pos rest hl
  by_cases hshort : body.length < 4
  · have hrefused : build l pos len = .error .refused := by rw [build, if_pos (by omega)]
    refine ⟨⟨?_, ?_⟩, fun _ => hrefused, ?_⟩
    · rintro ⟨lsa, hlsa⟩
      rw [hrefused] at hlsa
      cases hlsa
    · rintro ⟨n, hn⟩
      omega
    · intro lsa hlsa
      rw [hrefused] at hlsa
      cases hlsa
  · obtain ⟨options, ls, tail, hbody, htail⟩ := exists_body body (by omega)
    have hbodyLen : body.length = 4 + 16 * ls.length + tail.length := by
      simp [hbody]
      omega
    have hdrop : l.drop pos = writeU32 options ++ (blocks ls ++ (tail ++ rest)) := by
      rw [hl, hbody]
      simp only [List.append_assoc]
    have hbuild := build_blocks hdrop (hlen.trans hbodyLen) htail
    have hexact : tail = [] ↔ ∃ n, body.length = 4 + 16 * n := by
      constructor
      · intro htl
        exact ⟨ls.length, by simpa [htl] using hbodyLen⟩
      · rintro ⟨n, hn⟩
        exact List.length_eq_zero_iff.1 (by omega)
    refine ⟨?_, ?_, ?_⟩
    · rw [← hexact, hbuild]
      split_ifs with htl
      · simp [htl]
      · simp [htl]
    · intro hnot
      rw [hbuild, if_neg (mt hexact.1 hnot)]
    · intro lsa hlsa
      rw [hbuild] at hlsa
      split_ifs at hlsa with htl
      obtain rfl := Except.ok.inj hlsa
      subst htl
      rw [List.length_nil, Nat.add_zero] at hbodyLen
      refine ⟨_, ?_, ?_, fun buf hbuf => buildBody_wire ?_ (by omega)⟩
      · rw [length_wire, hbodyLen, List.length_map]
      · intro i hi
        rw [wire, hbody, List.append_nil]
        by_cases hoptions : i < 4
        · rw [List.getElem?_append_left hoptions, List.getElem?_append_left hoptions]
        · rw [List.getElem?_append_right (by simpa using hoptions),
            List.getElem?_append_right (by simpa using hoptions)]
          exact getElem_blocks ls _ (by rw [length_writeU32]; omega)
      · rw [hlen, hbodyLen, List.length_map]

/-- **The OSPFv3 router LSA**: what is written is read back, and each body is read exactly if it is
    made of links, and then written as it was but for the reserved bytes. -/
theorem codec :
    (∀ lsa : RouterLsaV3, lsa.links.length ≤ 4095 → lsa.RoundTrips) ∧
      ∀ (body : List UInt8) (len : UInt16), len.toNat = body.length → Reproduces body len :=
  ⟨fun _ h => roundTrips_of_le h, fun body _ hlen => reproduces body hlen⟩

/-- One link, and a body of one link with a reserved byte. -/
theorem codec_one_link :
    RoundTrips ⟨1, [⟨1, 10, 2, 3, 4⟩]⟩ ∧
      Reproduces [0, 0, 0, 1, 1, 7, 0, 10, 0, 0, 0, 2, 0, 0, 0, 3, 0, 0, 0, 4] 20 :=
  ⟨codec.1 ⟨1, [⟨1, 10, 2, 3, 4⟩]⟩ (by decide), codec.2 _ 20 rfl⟩

end RouterLsaV3

end VirtualRouter.Ospf
