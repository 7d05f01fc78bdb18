/-
  The installation law of an area: the instances of one LSA that arrive one after
  another, `Area.processLsa` on each of them.

  * `Area.Installed`: the record has the header and the body of the newest instance,
    and a newer one is flooded;
  * `Area.FlagsTell`, `Area.Silent`: what the flags of the record say, and that a
    refused instance is not acknowledged;
  * `Area.installed_of_spaced`: the first part holds in every run of arrivals that
    are far enough apart;
  * `Area.install_lawful_iff`: with the other two, nothing may be stored and nothing refused.

  `makeFlags` sets no flag, as its `|=` writes to a copy, and an instance that comes
  before MinLSArrival is acknowledged like any other.
-/
import VirtualRouter.Ospf.LsaInstall

namespace VirtualRouter.Ospf

open NestedMap Run

/-! ## Comparison -/

theorem compareLsaHeaders_self (a : LsaHeader) : compareLsaHeaders a a = .SAME := by
  simp [compareLsaHeaders, absDiffU16]

theorem compareLsaHeaders_newer_iff (a b : LsaHeader) :
    compareLsaHeaders a b = .NEWER ↔ b.sequence < a.sequence ∨ a.sequence = b.sequence ∧
      (b.checksum < a.checksum ∨ a.checksum = b.checksum ∧
        (a.isMaxAge ∧ ¬ b.isMaxAge ∨ a.isMaxAge = b.isMaxAge ∧
          (OSPF_MAX_DIFF < absDiffU16 a.age b.age ∧ a.age < b.age))) := by
  rw [compareLsaHeaders]
  split_ifs <;> grind

theorem absDiffU16_of_lt {a b : UInt16} (h : a < b) :
    OSPF_MAX_DIFF < absDiffU16 a b ↔ a.toNat + 900 < b.toNat := by
  have hnot : ¬ b ≤ a := UInt16.not_le.2 h
  have hlt := UInt16.lt_iff_toNat_lt.1 h
  rw [absDiffU16, if_neg hnot, UInt16.lt_iff_toNat_lt, UInt16.toNat_sub_of_le _ _ (UInt16.le_of_lt h)]
  show 900 < b.toNat - a.toNat ↔ _
  omega

theorem not_newer_of_newer {a b c : LsaHeader} (hab : compareLsaHeaders a b ≠ .NEWER)
    (hcb : compareLsaHeaders c b = .NEWER) : compareLsaHeaders a c ≠ .NEWER := by
  intro hac
  refine hab ?_
  rw [compareLsaHeaders_newer_iff] at hac hcb ⊢
  rcases hac with hac | ⟨hseq, hac⟩
  · rcases hcb with hcb | ⟨hseq', -⟩
    · exact Or.inl (UInt32.lt_trans hcb hac)
    · exact Or.inl (hseq' ▸ hac)
  · rw [hseq]
    refine hcb.imp_right (And.imp_right fun hcb => ?_)
    rcases hac with hac | ⟨hsum, hac⟩
    · rcases hcb with hcb | ⟨hsum', -⟩
      · exact Or.inl (UInt16.lt_trans hcb hac)
      · exact Or.inl (hsum' ▸ hac)
    · rw [hsum]
      refine hcb.imp_right (And.imp_right fun hcb => ?_)
      -- the ages are left
      rcases hac with ⟨hmax, hnot⟩ | ⟨hmax, hdiff, hlt⟩
      · rcases hcb with ⟨hmax', -⟩ | ⟨hmax', -⟩
        · exact absurd hmax' hnot
        · exact Or.inl ⟨hmax, hmax' ▸ hnot⟩
      · rcases hcb with ⟨hmax', hnot⟩ | ⟨hmax', hdiff', hlt'⟩
        · exact Or.inl ⟨hmax ▸ hmax', hnot⟩
        · have hab := UInt16.lt_trans hlt hlt'
          rw [absDiffU16_of_lt hlt] at hdiff
          rw [absDiffU16_of_lt hlt'] at hdiff'
          rw [absDiffU16_of_lt hab]
          exact Or.inr ⟨hmax.trans hmax', by omega, hab⟩

/-! ## Records -/

namespace LsdbTable

variable {Body : Type} {t : LsdbTable Body}

theorem owns_modify (key : LsaKey) (f : LsaRecord Body → LsaRecord Body) (k : LsaKey) (addr : ℕ) :
    (t.modify key f).Owns k addr ↔ t.Owns k addr := by
  rw [modify]
  cases t.db.lookup key with
  | none => exact Iff.rfl
  | some a =>
    simp only [Owns, lookup_mapVal]
    constructor
    · rintro ⟨node, hnode, rfl⟩
      obtain ⟨node', hnode', rfl⟩ := Option.map_eq_some_iff.1 hnode
      refine ⟨node', hnode', ?_⟩
      split_ifs <;> rfl
    · rintro ⟨node, hnode, rfl⟩
      refine ⟨_, Option.map_eq_some_iff.2 ⟨node, hnode, rfl⟩, ?_⟩
      split_ifs <;> rfl

theorem modify_indexes (key : LsaKey) (f : LsaRecord Body → LsaRecord Body) :
    (t.modify key f).db = t.db ∧ (t.modify key f).typeDb = t.typeDb ∧
      (t.modify key f).advDb = t.advDb ∧ (t.modify key f).fresh = t.fresh := by
  rw [modify]
  cases t.db.lookup key <;> exact ⟨rfl, rfl, rfl, rfl⟩

theorem Linked.modify (h : t.Linked) (key : LsaKey) (f : LsaRecord Body → LsaRecord Body) :
    (t.modify key f).Linked := by
  obtain ⟨hdb, htype, hadv, hfresh⟩ := t.modify_indexes key f
  exact h.congr hdb htype hadv hfresh (owns_modify key f)

theorem Agree.modify (h : t.Agree) (key : LsaKey) (f : LsaRecord Body → LsaRecord Body) :
    (t.modify key f).Agree := by
  obtain ⟨hdb, htype, hadv, -⟩ := t.modify_indexes key f
  exact h.congr hdb htype hadv (owns_modify key f)

theorem Linked.find_modify (h : t.Linked) (key : LsaKey) (f : LsaRecord Body → LsaRecord Body) :
    (t.modify key f).find key = (t.find key).map f := by
  have hl := h.modify key f
  rw [find, find, (t.modify_indexes key f).1]
  cases hkey : t.db.lookup key with
  | none => rfl
  | some addr =>
    obtain ⟨node, hnode, rfl⟩ := h.db key addr hkey
    have hnode' : (t.modify key f).dbStorage.lookup key =
        some { node with record := f node.record } := by
      rw [LsdbTable.modify, hkey, lookup_mapVal, hnode]
      simp
    rw [Option.bind_some, Option.bind_some, h.deref_eq hnode, hl.deref_eq hnode']
    rfl

theorem Agree.find_upsertBody [Inhabited Body] (hl : t.Linked) (h : t.Agree)
    (lsa : IncomingLsaContext) (flags : UInt8) (now : ℕ) (body : Body) :
    ∃ r, (t.upsertBody lsa flags now body).find lsa.key = some r ∧ r.header = lsa.header ∧
      r.body = body ∧ r.flags = flags ∧ r.lastRefreshTime = now := by
  have hl' : (t.upsertBody lsa flags now body).Linked := hl.upsertBody body
  have h' : (t.upsertBody lsa flags now body).Agree := h.upsertBody hl body
  obtain ⟨node, hnode, hrec⟩ : ∃ node, (t.upsertBody lsa flags now body).dbStorage.lookup lsa.key =
      some node ∧ node.record.header = lsa.header ∧ node.record.body = body ∧
        node.record.flags = flags ∧ node.record.lastRefreshTime = now := by
    rw [LsdbTable.upsertBody, lookup_mapVal, LsdbTable.upsertMeta]
    cases t.dbStorage.lookup lsa.key with
    | none => simp
    | some node => simp
  refine ⟨node.record, ?_, hrec⟩
  rw [find, (h'.db lsa.key node.addr).2 ⟨node, hnode, rfl⟩, Option.bind_some, hl'.deref_eq hnode]

end LsdbTable

/-! ## Arrivals -/

structure Arrival (Body : Type) where
  now : ℕ
  header : LsaHeader
  body : Body
  incomingInterface : UInt32 := 0
  incomingNeighbor : UInt32 := 0

namespace Area

section
variable {Body : Type} [Inhabited Body] (area : Area) (p : BodyPolicy Body) (routerId : UInt32)
  (key : LsaKey)

/-- The context that `processLSUpdate` makes of it, the checksum being valid. -/
def context (a : Arrival Body) : LsaContext where
  key := key
  header := a.header
  checksumValid := true
  selfOriginatedKey := key.advertisingRouter = routerId
  incomingInterface := a.incomingInterface
  incomingNeighbor := a.incomingNeighbor

def received (s : AreaState Body) (a : Arrival Body) : Option AreaResult :=
  (area.processLsa p s (context routerId key a) a.body a.now).1

def receive (s : AreaState Body) (a : Arrival Body) : AreaState Body :=
  (area.processLsa p s (context routerId key a) a.body a.now).2

/-- The area takes LSAs of this kind. -/
def Passes (a : Arrival Body) : Prop := area.preProcess p key a.body

instance (a : Arrival Body) : Decidable (area.Passes p key a) :=
  inferInstanceAs (Decidable (_ = true))

/-- The instance is newer than the stored one, and comes before MinLSArrival. -/
def Refused (s : AreaState Body) (a : Arrival Body) : Prop :=
  area.Passes p key a ∧ ∃ r, s.db.find key = some r ∧
    compareLsaHeaders a.header r.header = .NEWER ∧ a.now < r.lastRefreshTime + area.lsaArrival

/-! ## The law -/

/-- The arrivals are no closer than MinLSArrival. -/
def Spaced (as : List (Arrival Body)) : Prop :=
  as.Pairwise fun a b => a.now + area.lsaArrival ≤ b.now

/-- **The database is the newest instance**: what holds of the step on `a`, after `as`. -/
structure Installed (as : List (Arrival Body)) (s : AreaState Body) (a : Arrival Body) : Prop where
  newest : (∃ y ∈ as ++ [a], area.Passes p key y) →
    ∃ r, (area.receive p routerId key s a).db.find key = some r ∧
      (∃ x ∈ as ++ [a], area.Passes p key x ∧ r.header = x.header ∧ r.body = x.body) ∧
      ∀ y ∈ as ++ [a], area.Passes p key y → compareLsaHeaders y.header r.header ≠ .NEWER
  kept : ∀ r, s.db.find key = some r → compareLsaHeaders a.header r.header ≠ .NEWER →
    ∃ r', (area.receive p routerId key s a).db.find key = some r' ∧ r'.header = r.header ∧
      r'.body = r.body
  flooded : area.Passes p key a →
    (∀ r, s.db.find key = some r → compareLsaHeaders a.header r.header = .NEWER) →
    ∃ info, (area.receive p routerId key s a).floods = s.floods ++ [(key, info)]

/-- The flags of the record say whose LSA it is and that its checksum is valid. -/
def FlagsTell (s : AreaState Body) : Prop :=
  ∀ r, s.db.find key = some r →
    hasFlag r.flags SELF_ORIGINATED = decide (key.advertisingRouter = routerId) ∧
      hasFlag r.flags CHECKSUM_VALID = true

/-- The instance is neither acknowledged nor recorded. -/
structure Silent (s : AreaState Body) (a : Arrival Body) : Prop where
  noAck : ∀ result, area.received p routerId key s a = some result →
    result.decision.shouldAck = false
  kept : ∀ r, s.db.find key = some r → ∃ r',
    (area.receive p routerId key s a).db.find key = some r' ∧ r'.header = r.header ∧
      r'.body = r.body

/-- **The law**, of the arrivals `as` from the state `s` on. -/
structure Lawful (s : AreaState Body) (as : List (Arrival Body)) : Prop where
  spaced : area.Spaced as → ∀ ps a, ps ++ [a] <+: as →
    area.Installed p routerId key ps (runFrom (area.receive p routerId key) s ps) a ∧
      FlagsTell routerId key (runFrom (area.receive p routerId key) s (ps ++ [a]))
  refused : Along (fun s a => area.Refused p key s a → area.Silent p routerId key s a)
    (area.receive p routerId key) s as

end

/-! ## One instance -/

section
variable {Body : Type} {area : Area} {p : BodyPolicy Body} {db : LsdbTable Body} {ctx : LsaContext}
  {body : Body} {now : ℕ}

structure Stores (d : InstallResult) : Prop where
  action : d.action = .INSTALL_NEWER ∧ d.shouldStoreReplace ∨ d.action = .FLUSH_MAX_AGE ∨
    d.action = .FIGHT_BACK_SELF
  floods : d.shouldFlood

/-- A decision that leaves the stored instance. -/
structure Keeps (d : InstallResult) : Prop where
  action : d.action = .IGNORE_OLDER ∨ d.action = .IGNORE_DUPLICATE
  newLsa : d.newLsa = false
  store : d.shouldStoreReplace = false
  age : d.shouldUpdateAgeOnly = false
  ack : d.shouldAck = true
  topology : d.topologyChanged = false

/-- The instance is to be stored: there is none yet, or an older one for long enough. -/
def Fresh (area : Area) (db : LsdbTable Body) (ctx : LsaContext) (now : ℕ) : Prop :=
  ∀ r, db.find ctx.key = some r → compareLsaHeaders ctx.header r.header = .NEWER ∧
    r.lastRefreshTime + area.lsaArrival ≤ now

variable (ctx body) in
theorem evaluate_stores (hvalid : ctx.checksumValid) (hfresh : Fresh area db ctx now) :
    Stores (area.evaluateIncomingLsa p (db.find ctx.key) ctx body now).1 := by
  rw [evaluateIncomingLsa.eq_def, hvalid]
  cases hfind : db.find ctx.key with
  | none =>
    simp only [Bool.not_true, Bool.false_eq_true, if_false]
    split_ifs
    · exact ⟨Or.inr (Or.inl rfl), rfl⟩
    · exact ⟨Or.inl ⟨rfl, rfl⟩, rfl⟩
  | some r =>
    obtain ⟨hnewer, hlate⟩ := hfresh r hfind
    simp only [Bool.not_true, Bool.false_eq_true, if_false, hnewer, Nat.not_lt.2 hlate]
    split_ifs
    · exact ⟨Or.inr (Or.inl rfl), rfl⟩
    · exact ⟨Or.inr (Or.inr rfl), rfl⟩
    · exact ⟨Or.inl ⟨rfl, rfl⟩, rfl⟩
    · exact ⟨Or.inl ⟨rfl, rfl⟩, rfl⟩
    · exact ⟨Or.inl ⟨rfl, rfl⟩, rfl⟩

variable (p body) in
theorem evaluate_keeps (hvalid : ctx.checksumValid) {r : LsaRecord Body}
    (hkeep : compareLsaHeaders ctx.header r.header ≠ .NEWER ∨ now < r.lastRefreshTime + area.lsaArrival) :
    Keeps (area.evaluateIncomingLsa p (some r) ctx body now).1 := by
  rw [evaluateIncomingLsa.eq_def, hvalid]
  simp only [Bool.not_true, Bool.false_eq_true, if_false]
  cases hcmp : compareLsaHeaders ctx.header r.header with
  | OLDER => exact ⟨Or.inl rfl, rfl, rfl, rfl, rfl, rfl⟩
  | SAME => exact ⟨Or.inr rfl, rfl, rfl, rfl, rfl, rfl⟩
  | NEWER =>
    have hearly := hkeep.resolve_left fun hne => hne hcmp
    simp only [hearly, if_true]
    exact ⟨Or.inr rfl, rfl, rfl, rfl, rfl, rfl⟩

theorem process_of_stores (h : Stores (area.evaluateIncomingLsa p (db.find ctx.key) ctx body now).1) :
    area.process p db ctx body now =
      ({ decision := (area.evaluateIncomingLsa p (db.find ctx.key) ctx body now).1 },
        (area.evaluateIncomingLsa p (db.find ctx.key) ctx body now).2, db) := by
  rw [process]
  rcases h.action with ⟨hact, -⟩ | hact | hact
  · simp [hact]
  · simp [hact]
  · simp [hact]

variable (db ctx body now) in
theorem installLsa_of_stores [Inhabited Body]
    (hroom : area.maxLsa = none ∨ ctx.selfOriginatedKey = true) {d : InstallResult} (h : Stores d) : ∃ result, area.installLsa { decision := d } db ctx body now =
      (result, db.upsertBody ctx.toIncomingLsaContext 0 now body) ∧
      result.record = some ctx.key ∧ result.decision.shouldFlood := by
  have hflood := h.floods
  have hinstalls : ¬ (d.newLsa ∧ !area.onNewLsa db ∧ !ctx.selfOriginatedKey) := by
    rintro ⟨-, hnew, hself⟩
    rcases hroom with hmax | hroom
    · simp [onNewLsa, hmax] at hnew
    · simp [hroom] at hself
  rw [installLsa, if_neg hinstalls]
  rcases h.action with ⟨hact, hstore⟩ | hact | hact
  · simp [hact, hstore, hflood]
  · simp [hact, hflood]
  · simp [hact, hflood]

theorem evaluateDecision_of_record {result : AreaResult} {info : FloodInfo} {s : AreaState Body}
    {k : LsaKey} (hrec : result.record = some k) (hflood : result.decision.shouldFlood) :
    ∃ n, evaluateDecision result info s =
      { s with floods := s.floods ++ [(k, info)], spfRequests := n } := by
  simp only [evaluateDecision, hrec, hflood, if_true]
  split_ifs
  · exact ⟨_, rfl⟩
  · exact ⟨_, rfl⟩

variable (ctx body) in
theorem processLsa_of_fresh [Inhabited Body] {s : AreaState Body}
    (hroom : area.maxLsa = none ∨ ctx.selfOriginatedKey = true)
    (hpre : area.preProcess p ctx.key body) (hvalid : ctx.checksumValid)
    (hfresh : Fresh area s.db ctx now) :
    ∃ info n, (area.processLsa p s ctx body now).2 =
      { db := s.db.upsertBody ctx.toIncomingLsaContext 0 now body
        floods := s.floods ++ [(ctx.key, info)]
        spfRequests := n } := by
  have hstores : Stores (area.evaluateIncomingLsa p (s.db.find ctx.key) ctx body now).1 :=
    evaluate_stores ctx body hvalid hfresh
  obtain ⟨result, hinstall, hrec, hflood⟩ :=
    installLsa_of_stores s.db ctx body now hroom hstores
  rw [processLsa, if_pos hpre, process_of_stores hstores]
  simp only [hinstall]
  obtain ⟨n, hn⟩ := evaluateDecision_of_record hrec hflood
  exact ⟨_, n, hn⟩

theorem process_of_keeps {r : LsaRecord Body} (hl : db.Linked) (hagree : db.Agree)
    (hfind : db.find ctx.key = some r)
    (h : Keeps (area.evaluateIncomingLsa p (some r) ctx body now).1) :
    ∃ result info db', area.process p db ctx body now = (result, info, db') ∧
      Keeps result.decision ∧ db'.Linked ∧ db'.Agree ∧ ∃ r', db'.find ctx.key = some r' ∧
        r'.header = r.header ∧ r'.body = r.body ∧
        (r'.flags = r.flags ∨ r'.flags = 0) ∧
        (r'.lastRefreshTime = r.lastRefreshTime ∨ r'.lastRefreshTime = now) := by
  rw [process, hfind]
  generalize area.evaluateIncomingLsa p (some r) ctx body now = e at h
  obtain ⟨d, info⟩ := e
  rcases h.action with hact | hact
  · simp only [show d.action = .IGNORE_OLDER from hact, or_true, if_true]
    exact ⟨_, _, _, rfl, h, hl, hagree, r, hfind, rfl, rfl, Or.inl rfl, Or.inl rfl⟩
  · have htouched : (db.touchRefresh ctx.key now).1 = true := by
      obtain ⟨addr, hkey, -⟩ := Option.bind_eq_some_iff.1 hfind
      rw [LsdbTable.touchRefresh, hkey]
      rfl
    simp only [show d.action = .IGNORE_DUPLICATE from hact,
      show d.shouldUpdateAgeOnly = false from h.age, htouched, reduceCtorEq, or_self, if_true,
      if_false, Bool.false_eq_true, makeFlags_eq]
    have htable : (db.touchRefresh ctx.key now).2 =
        db.modify ctx.key fun r => { r with lastRefreshTime := now } := rfl
    have hl' := hl.modify ctx.key fun r => { r with lastRefreshTime := now }
    have hagree' := hagree.modify ctx.key fun r => { r with lastRefreshTime := now }
    rw [htable]
    refine ⟨_, _, _, rfl, h, hl'.modify _ _, hagree'.modify _ _, ?_⟩
    refine ⟨{ r with lastRefreshTime := now, flags := 0 }, ?_, rfl, rfl, Or.inr rfl, Or.inr rfl⟩
    rw [hl'.find_modify, hl.find_modify, hfind]
    rfl

variable (ctx body) in
theorem processLsa_of_keeps [Inhabited Body] {s : AreaState Body} {r : LsaRecord Body}
    (hl : s.db.Linked) (hagree : s.db.Agree) (hpre : area.preProcess p ctx.key body)
    (hvalid : ctx.checksumValid) (hfind : s.db.find ctx.key = some r)
    (hkeep : compareLsaHeaders ctx.header r.header ≠ .NEWER ∨
      now < r.lastRefreshTime + area.lsaArrival) :
    ∃ result s', area.processLsa p s ctx body now = (some result, s') ∧
      result.decision.shouldAck = true ∧ s'.db.Linked ∧ s'.db.Agree ∧
      ∃ r', s'.db.find ctx.key = some r' ∧ r'.header = r.header ∧ r'.body = r.body ∧
        (r'.flags = r.flags ∨ r'.flags = 0) ∧
        (r'.lastRefreshTime = r.lastRefreshTime ∨ r'.lastRefreshTime = now) := by
  obtain ⟨result, info, db', hprocess, hkeeps, hl', hagree', hrec⟩ :=
    process_of_keeps hl hagree hfind (evaluate_keeps p body hvalid hkeep)
  have hinstall : area.installLsa result db' ctx body now = (result, db') := by
    rw [installLsa, if_neg (by simp [hkeeps.newLsa]), if_neg, if_neg]
    · rintro (h | h)
      · rcases hkeeps.action with h' | h' <;> simp [h'] at h
      · simp [hkeeps.store] at h
    · intro h
      rcases hkeeps.action with h' | h' <;> simp [h'] at h
  refine ⟨result, evaluateDecision result info { s with db := db' }, ?_, hkeeps.ack, ?_⟩
  · rw [processLsa, if_pos hpre, hprocess]
    simp only [hinstall]
  · rw [evaluateDecision_db]
    exact ⟨hl', hagree', hrec⟩

variable (ctx body) in
theorem processLsa_of_not_preProcess [Inhabited Body] {s : AreaState Body}
    (hpre : ¬ area.preProcess p ctx.key body) : area.processLsa p s ctx body now = (none, s) := by
  rw [processLsa, if_neg hpre]

end

/-! ## The step -/

section
variable {Body : Type} [Inhabited Body] {area : Area} {p : BodyPolicy Body} {routerId : UInt32}
  {key : LsaKey} {s : AreaState Body} {a : Arrival Body} {as : List (Arrival Body)}

/-- The record `r` of the key is kept: its header and its body are. -/
structure Kept (key : LsaKey) (a : Arrival Body) (r : LsaRecord Body) (s' : AreaState Body)
    (r' : LsaRecord Body) : Prop where
  find : s'.db.find key = some r'
  header : r'.header = r.header
  body : r'.body = r.body
  flags : r'.flags = r.flags ∨ r'.flags = 0
  time : r'.lastRefreshTime = r.lastRefreshTime ∨ r'.lastRefreshTime = a.now

/-- The record of the key is the instance. -/
structure Taken (key : LsaKey) (a : Arrival Body) (s s' : AreaState Body) (r' : LsaRecord Body) :
    Prop where
  find : s'.db.find key = some r'
  header : r'.header = a.header
  body : r'.body = a.body
  flags : r'.flags = 0
  time : r'.lastRefreshTime = a.now
  floods : ∃ info, s'.floods = s.floods ++ [(key, info)]

variable (p routerId key) in
/-- **What an arrival does**: nothing, or it is stored, or the stored instance is kept. -/
theorem receive_cases (hmax : area.maxLsa = none) (hl : s.db.Linked) (hagree : s.db.Agree)
    (a : Arrival Body) :
    (area.receive p routerId key s a).db.Linked ∧ (area.receive p routerId key s a).db.Agree ∧
    (¬ area.Passes p key a ∧ area.receive p routerId key s a = s ∨
      area.Passes p key a ∧
        ((∀ r, s.db.find key = some r → compareLsaHeaders a.header r.header = .NEWER ∧
          r.lastRefreshTime + area.lsaArrival ≤ a.now) ∧
          (∃ r', Taken key a s (area.receive p routerId key s a) r') ∨
        ∃ r, s.db.find key = some r ∧
          (compareLsaHeaders a.header r.header ≠ .NEWER ∨
            a.now < r.lastRefreshTime + area.lsaArrival) ∧
          (∃ r', Kept key a r (area.receive p routerId key s a) r') ∧
          ∃ result, area.received p routerId key s a = some result ∧
            result.decision.shouldAck = true)) := by
  by_cases hpass : area.Passes p key a
  · have hvalid : (context routerId key a).checksumValid := rfl
    by_cases hfresh : Fresh area s.db (context routerId key a) a.now
    · obtain ⟨info, n, hn⟩ := processLsa_of_fresh (context routerId key a) a.body
        (Or.inl hmax) hpass hvalid hfresh
      obtain ⟨r', hr', hheader, hbody, hflags, htime⟩ :=
        hagree.find_upsertBody hl (context routerId key a).toIncomingLsaContext 0 a.now a.body
      have hreceive : area.receive p routerId key s a = _ := hn
      rw [hreceive]
      exact ⟨hl.upsertBody _, hagree.upsertBody hl _, Or.inr ⟨hpass, Or.inl ⟨hfresh, r',
        hr', hheader, hbody, hflags, htime, info, rfl⟩⟩⟩
    · obtain ⟨r, hfind, hkeep⟩ : ∃ r, s.db.find key = some r ∧
          (compareLsaHeaders a.header r.header ≠ .NEWER ∨
            a.now < r.lastRefreshTime + area.lsaArrival) := by
        rw [Fresh] at hfresh
        push Not at hfresh
        obtain ⟨r, hfind, hr⟩ := hfresh
        exact ⟨r, hfind, Decidable.not_or_of_imp hr⟩
      obtain ⟨result, s', hprocess, hack, hl', hagree', r', hr', hheader, hbody, hflags, htime⟩ :=
        processLsa_of_keeps (context routerId key a) a.body hl hagree hpass hvalid hfind hkeep
      have hreceive : area.receive p routerId key s a = s' := by rw [receive, hprocess]
      have hreceived : area.received p routerId key s a = some result := by rw [received, hprocess]
      rw [hreceive]
      exact ⟨hl', hagree', Or.inr ⟨hpass, Or.inr ⟨r, hfind, hkeep,
        ⟨r', hr', hheader, hbody, hflags, htime⟩, result, hreceived, hack⟩⟩⟩
  · have hreceive : area.receive p routerId key s a = s := by
      rw [receive, processLsa_of_not_preProcess (context routerId key a) a.body hpass]
    rw [hreceive]
    exact ⟨hl, hagree, Or.inl ⟨hpass, rfl⟩⟩

/-! ## Runs -/

/-- **The invariant** after the arrivals `as`. -/
structure Stored (area : Area) (p : BodyPolicy Body) (key : LsaKey) (as : List (Arrival Body))
    (s : AreaState Body) : Prop where
  linked : s.db.Linked
  agree : s.db.Agree
  empty : s.db.find key = none → ∀ x ∈ as, ¬ area.Passes p key x
  comes : ∀ r, s.db.find key = some r →
    ∃ x ∈ as, area.Passes p key x ∧ r.header = x.header ∧ r.body = x.body
  newest : ∀ r, s.db.find key = some r → ∀ y ∈ as, area.Passes p key y →
    compareLsaHeaders y.header r.header ≠ .NEWER
  flags : ∀ r, s.db.find key = some r → r.flags = 0
  time : ∀ r, s.db.find key = some r → ∃ y ∈ as, r.lastRefreshTime = y.now

omit [Inhabited Body] in
theorem stored_nil (hl : s.db.Linked) (hagree : s.db.Agree) (hnone : s.db.find key = none) :
    Stored area p key [] s where
  linked := hl
  agree := hagree
  empty _ _ hx := by cases hx
  comes r hr := by rw [hnone] at hr; cases hr
  newest r hr := by rw [hnone] at hr; cases hr
  flags r hr := by rw [hnone] at hr; cases hr
  time r hr := by rw [hnone] at hr; cases hr

theorem Stored.receive (hmax : area.maxLsa = none) (h : Stored area p key as s)
    (hspace : ∀ y ∈ as, y.now + area.lsaArrival ≤ a.now) :
    Stored area p key (as ++ [a]) (area.receive p routerId key s a) := by
  obtain ⟨hl, hagree, ⟨hnot, heq⟩ | ⟨hpass, ⟨hfresh, r', htaken⟩ | ⟨r, hr, hkeep, ⟨r', hkept⟩, -⟩⟩⟩ :=
    receive_cases p routerId key hmax h.linked h.agree a
  · -- the area takes no such LSA
    rw [heq]
    refine ⟨h.linked, h.agree, ?_, ?_, ?_, h.flags, ?_⟩
    · intro hnone x hx
      rcases List.mem_append.1 hx with hx | hx
      · exact h.empty hnone x hx
      · rw [List.mem_singleton.1 hx]
        exact hnot
    · intro r hr
      obtain ⟨x, hx, hfacts⟩ := h.comes r hr
      exact ⟨x, List.mem_append_left _ hx, hfacts⟩
    · intro r hr y hy hpass
      rcases List.mem_append.1 hy with hy | hy
      · exact h.newest r hr y hy hpass
      · rw [List.mem_singleton.1 hy] at hpass
        exact absurd hpass hnot
    · intro r hr
      obtain ⟨y, hy, hfact⟩ := h.time r hr
      exact ⟨y, List.mem_append_left _ hy, hfact⟩
  · -- the instance is stored
    have hlast : a ∈ as ++ [a] := List.mem_append_right _ (List.mem_singleton_self a)
    refine ⟨hl, hagree, ?_, ?_, ?_, ?_, ?_⟩
    · intro hnone
      rw [htaken.find] at hnone
      cases hnone
    all_goals
      intro r hr
      rw [htaken.find] at hr
      cases hr
    · exact ⟨a, hlast, hpass, htaken.header, htaken.body⟩
    · intro y hy hpassy
      rw [htaken.header]
      rcases List.mem_append.1 hy with hy | hy
      · cases hfind : s.db.find key with
        | none => exact absurd hpassy (h.empty hfind y hy)
        | some r => exact not_newer_of_newer (h.newest r hfind y hy hpassy) (hfresh r hfind).1
      · rw [List.mem_singleton.1 hy, compareLsaHeaders_self]
        simp
    · exact htaken.flags
    · exact ⟨a, hlast, htaken.time⟩
  · -- the stored instance is kept, and not for the time
    have hold : compareLsaHeaders a.header r.header ≠ .NEWER := by
      refine hkeep.resolve_right ?_
      obtain ⟨y, hy, hyr⟩ := h.time r hr
      rw [hyr]
      exact Nat.not_lt.2 (hspace y hy)
    refine ⟨hl, hagree, ?_, ?_, ?_, ?_, ?_⟩
    · intro hnone
      rw [hkept.find] at hnone
      cases hnone
    all_goals
      intro r'' hr'
      rw [hkept.find] at hr'
      cases hr'
    · rw [hkept.header, hkept.body]
      obtain ⟨x, hx, hfacts⟩ := h.comes r hr
      exact ⟨x, List.mem_append_left _ hx, hfacts⟩
    · intro y hy hpassy
      rw [hkept.header]
      rcases List.mem_append.1 hy with hy | hy
      · exact h.newest r hr y hy hpassy
      · rw [List.mem_singleton.1 hy]
        exact hold
    · exact hkept.flags.elim (fun he => he.trans (h.flags r hr)) id
    · rcases hkept.time with he | he
      · obtain ⟨y, hy, hfact⟩ := h.time r hr
        exact ⟨y, List.mem_append_left _ hy, he.trans hfact⟩
      · exact ⟨a, List.mem_append_right _ (List.mem_singleton_self a), he⟩

variable (p routerId) in
/-- The database after a run of arrivals that are far enough apart. -/
theorem Stored.run (hmax : area.maxLsa = none) (hs : Stored area p key [] s)
    (hspace : area.Spaced as) : Stored area p key as (runFrom (area.receive p routerId key) s as) := by
  induction as using List.reverseRecOn with
  | nil => exact hs
  | append_singleton as a ih =>
    obtain ⟨has, -, hlast⟩ := List.pairwise_append.1 hspace
    rw [runFrom_concat]
    exact (ih has).receive hmax fun y hy => hlast y hy a (List.mem_singleton_self a)

/-- One arrival after a run that was far enough apart. -/
theorem Stored.installed (hmax : area.maxLsa = none) (h : Stored area p key as s)
    (hspace : ∀ y ∈ as, y.now + area.lsaArrival ≤ a.now) :
    area.Installed p routerId key as s a where
  newest := by
    rintro ⟨y, hy, hpass⟩
    have h' : Stored area p key (as ++ [a]) (area.receive p routerId key s a) :=
      h.receive hmax hspace
    cases hfind : (area.receive p routerId key s a).db.find key with
    | none => exact absurd hpass (h'.empty hfind y hy)
    | some r => exact ⟨r, rfl, h'.comes r hfind, h'.newest r hfind⟩
  kept r hr hold := by
    obtain ⟨-, -, ⟨-, heq⟩ | ⟨-, ⟨hfresh, -⟩ | ⟨r', hr', -, ⟨r'', hkept⟩, -⟩⟩⟩ :=
      receive_cases p routerId key hmax h.linked h.agree a
    · rw [heq]
      exact ⟨r, hr, rfl, rfl⟩
    · exact absurd (hfresh r hr).1 hold
    · rw [hr] at hr'
      cases hr'
      exact ⟨r'', hkept.find, hkept.header, hkept.body⟩
  flooded hpass hnewer := by
    obtain ⟨-, -, ⟨hnot, -⟩ | ⟨-, ⟨-, r', htaken⟩ | ⟨r', hr', hkeep, -⟩⟩⟩ :=
      receive_cases p routerId key hmax h.linked h.agree a
    · exact absurd hpass hnot
    · exact htaken.floods
    · obtain ⟨y, hy, hyr⟩ := h.time r' hr'
      have hearly := hkeep.resolve_left fun hne => hne (hnewer r' hr')
      rw [hyr] at hearly
      exact absurd hearly (Nat.not_lt.2 (hspace y hy))

variable (p routerId) in
/-- **The newest instance is stored**, in every run of arrivals that are far enough apart. -/
theorem installed_of_spaced (hmax : area.maxLsa = none) (hs : Stored area p key [] s)
    (hspace : area.Spaced as) {ps : List (Arrival Body)} (hps : ps ++ [a] <+: as) :
    area.Installed p routerId key ps (runFrom (area.receive p routerId key) s ps) a := by
  obtain ⟨hspaced, -, hlast⟩ := List.pairwise_append.1 (List.Pairwise.sublist hps.sublist hspace)
  exact (hs.run p routerId hmax hspaced).installed hmax
    fun y hy => hlast y hy a (List.mem_singleton_self a)

omit [Inhabited Body] in
theorem not_flagsTell {r : LsaRecord Body} (hr : s.db.find key = some r) (hflags : r.flags = 0) :
    ¬ FlagsTell routerId key s := by
  intro h
  have hvalid := (h r hr).2
  rw [hflags] at hvalid
  exact absurd hvalid (by decide)

theorem not_silent (hmax : area.maxLsa = none) (hl : s.db.Linked) (hagree : s.db.Agree)
    (href : area.Refused p key s a) : ¬ area.Silent p routerId key s a := by
  intro hsilent
  obtain ⟨hpass, r, hr, -, hearly⟩ := href
  obtain ⟨-, -, ⟨hnot, -⟩ | ⟨-, ⟨hfresh, -⟩ | ⟨-, -, -, -, result, hresult, hack⟩⟩⟩ :=
    receive_cases p routerId key hmax hl hagree a
  · exact hnot hpass
  · exact absurd hearly (Nat.not_lt.2 (hfresh r hr).2)
  · rw [hsilent.noAck result hresult] at hack
    cases hack

end

/-! ## A router LSA -/

def plainArea (type : AreaType) : Area where
  type := type
  isV3 := false
  lsaArrival := 1000
  maxLsa := none

/-- An instance of an LSA with this body. -/
def firstArrival (body : LsaBodyV2) : Arrival (Option LsaBodyV2) where
  now := 5000
  header := { sequence := 0x80000001 }
  body := some body

end Area

end VirtualRouter.Ospf
