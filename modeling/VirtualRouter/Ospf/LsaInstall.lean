/-
  How an area takes an LSA (`routing/ospf/area/Area.cpp`).

  * `compareLsaHeaders`: which of two instances of an LSA is the newer one;
  * `Area.evaluateIncomingLsa`: the decision on an incoming instance;
  * `Area.processLsa` for a received LSA, `Area.processLsaConst` for one whose body
    is const: the second one evaluates and never installs.

  What is enqueued for flooding is a list, and the SPF runs that are asked for are
  counted.  `postProcess` is left out: it acts on interfaces, routes and other areas,
  and on no record of this area.
-/
import VirtualRouter.Ospf.FloodQueue
import VirtualRouter.Ospf.LsdbTable
import VirtualRouter.Ospf.OspfFletcher

namespace VirtualRouter.Ospf

open NestedMap Run

/-! ## Comparison -/

def OSPF_MAX_AGE : UInt16 := 3600

def OSPF_MAX_DIFF : UInt16 := 900

inductive LsaCompareResult where
  | NEWER
  | OLDER
  | SAME
  deriving DecidableEq, Repr

/-- `isMaxAge`, for `OSPF_MAX_AGE`. -/
def LsaHeader.isMaxAge (h : LsaHeader) : Bool := OSPF_MAX_AGE ≤ h.age

def absDiffU16 (a b : UInt16) : UInt16 := if b ≤ a then a - b else b - a

def compareLsaHeaders (a b : LsaHeader) : LsaCompareResult :=
  if a.sequence ≠ b.sequence then if b.sequence < a.sequence then .NEWER else .OLDER
  else if a.checksum ≠ b.checksum then if b.checksum < a.checksum then .NEWER else .OLDER
  else if a.isMaxAge ≠ b.isMaxAge then if a.isMaxAge then .NEWER else .OLDER
  else if OSPF_MAX_DIFF < absDiffU16 a.age b.age then if a.age < b.age then .NEWER else .OLDER
  else .SAME

/-! ## Bodies -/

/-- What the area asks of the bodies, which the policy of the version answers. -/
structure BodyPolicy (Body : Type) where
  isInterNetwork : Body → Bool
  isInterRouter : Body → Bool
  isExternal : Body → Bool
  nssaType : UInt16
  compareLsaBody : Body → Body → Bool
  /-- The checksum and the size. -/
  runLsaCalculations : LsaHeader → LsaKey → Body → UInt16 × UInt16

/-- `RouterLinkV2::operator<`. -/
def RouterLinkV2.less (a b : RouterLinkV2) : Bool :=
  if a.type ≠ b.type then a.type < b.type
  else if a.linkId ≠ b.linkId then a.linkId < b.linkId
  else if a.linkData ≠ b.linkData then a.linkData < b.linkData
  else a.metric < b.metric

/-- The links in their order. -/
def RouterLsaV2.sorted (lsa : RouterLsaV2) : List RouterLinkV2 :=
  lsa.links.insertionSort fun a b => b.less a = false

/-- `RouterLsaV2::operator==`: the links are to differ. -/
def RouterLsaV2.same (a b : RouterLsaV2) : Bool :=
  a.flags = b.flags ∧ a.links.length = b.links.length ∧
    (a.sorted.zip b.sorted).all fun p => p.1 ≠ p.2

/-- `NetworkLsaV2::operator==`. -/
def NetworkLsaV2.same (a b : NetworkLsaV2) : Bool :=
  a.attachedRouters.length = b.attachedRouters.length ∧ a.networkMask = b.networkMask ∧
    a.attachedRouters.insertionSort (· ≤ ·) = b.attachedRouters.insertionSort (· ≤ ·)

/-- `compareLsaBody`; a type without a comparison is the same. -/
def LsaBodyV2.compareLsaBody : Option LsaBodyV2 → Option LsaBodyV2 → Bool
  | some (.router a), some (.router b) => a.same b
  | some (.network a), some (.network b) => a.same b
  | some (.summaryNetwork a), some (.summaryNetwork b) =>
    a.networkMask = b.networkMask ∧ a.metric = b.metric
  | some (.summaryRouter a), some (.summaryRouter b) => a.metric = b.metric
  | _, _ => true

def LsaBodyV2.runLsaCalculations (hdr : LsaHeader) (key : LsaKey) (body : LsaBodyV2) :
    UInt16 × UInt16 :=
  let size := 20 + body.size
  let check := ((((ChecksumFletcher.add {} hdr.options).addU16 key.lsaType).addU32
    key.linkStateId).addU32 key.advertisingRouter).addU32 hdr.sequence
  ((body.appendChecksum (check.addU16 size)).finalize, size)

/-- `PolicyV2`; `none` is `std::monostate`. -/
def bodyPolicyV2 : BodyPolicy (Option LsaBodyV2) where
  isInterNetwork body := body matches some (.summaryNetwork _)
  isInterRouter body := body matches some (.summaryRouter _)
  isExternal body := body matches some (.external _)
  nssaType := 7
  compareLsaBody := LsaBodyV2.compareLsaBody
  runLsaCalculations hdr key body :=
    (body.map (LsaBodyV2.runLsaCalculations hdr key)).getD (0, 0)

/-! ## The area -/

inductive AreaType where
  | NORMAL
  | STUB
  | TOTALLY_STUB
  | NSSA
  | TOTALLY_NSSA
  deriving DecidableEq, Repr

structure Area where
  type : AreaType
  isV3 : Bool
  lsaArrival : ℕ
  maxLsa : Option ℕ
  deriving DecidableEq, Repr

/-- `IncomingLsaContext`. -/
structure LsaContext extends IncomingLsaContext where
  checksumValid : Bool := false
  selfOriginatedKey : Bool := false
  info : FloodInfo := {}
  deriving DecidableEq, Repr

inductive InstallAction where
  | REJECT_INVALID
  | IGNORE_OLDER
  | IGNORE_DUPLICATE
  | INSTALL_NEWER
  | FLUSH_MAX_AGE
  | FIGHT_BACK_SELF
  deriving DecidableEq, Repr

structure InstallResult where
  action : InstallAction := .IGNORE_OLDER
  compare : LsaCompareResult := .SAME
  newLsa : Bool := false
  shouldStoreReplace : Bool := false
  shouldUpdateAgeOnly : Bool := false
  shouldAck : Bool := true
  newStoredAge : UInt16 := 0
  affectsSpfGraph : Bool := false
  topologyChanged : Bool := false
  shouldFlood : Bool := false
  shouldFightBack : Bool := false
  deriving DecidableEq, Repr

/-- `Area::Result`; the pointer to a record is the key of the record. -/
structure AreaResult where
  decision : InstallResult := {}
  flags : UInt8 := 0
  record : Option LsaKey := none
  deriving DecidableEq, Repr

structure AreaState (Body : Type) where
  db : LsdbTable Body := {}
  /-- The calls of `enqueueFlood`. -/
  floods : List (LsaKey × FloodInfo) := []
  /-- How often `requestSpf` was called. -/
  spfRequests : ℕ := 0

/-! ## Flags -/

def SELF_ORIGINATED : UInt8 := 1

def CHECKSUM_VALID : UInt8 := 2

/-- `operator|=`: it has its own copy of the left operand, so the caller's value, which comes
    first here, stays. -/
def orAssign (a b : UInt8) : UInt8 × UInt8 := (a, a ||| b)

def hasFlag (v f : UInt8) : Bool := v &&& f ≠ 0

def makeFlags (ctx : LsaContext) : UInt8 :=
  let f : UInt8 := 0
  let f := if ctx.selfOriginatedKey then (orAssign f SELF_ORIGINATED).1 else f
  if ctx.checksumValid then (orAssign f CHECKSUM_VALID).1 else f

@[simp] theorem makeFlags_eq (ctx : LsaContext) : makeFlags ctx = 0 := by
  simp [makeFlags, orAssign]

/-! ## Records -/

namespace LsdbTable

variable {Body : Type} (t : LsdbTable Body)

/-- A write through the pointer that `db` has for the key. -/
def modify (key : LsaKey) (f : LsaRecord Body → LsaRecord Body) : LsdbTable Body :=
  match t.db.lookup key with
  | none => t
  | some addr => { t with dbStorage := mapVal t.dbStorage fun _ node =>
      if node.addr = addr then { node with record := f node.record } else node }

def touchRefresh (key : LsaKey) (now : ℕ) : Bool × LsdbTable Body :=
  ((t.db.lookup key).isSome, t.modify key fun r => { r with lastRefreshTime := now })

end LsdbTable

/-! ## Evaluation -/

namespace Area

variable {Body : Type} (area : Area) (p : BodyPolicy Body)

def affectsSpfGraph (t : UInt16) : Bool :=
  if area.isV3 then
    t = 0x2001 ∨ t = 0x2002 ∨ t = 0x2003 ∨ t = 0x2004 ∨ t = 0x2009 ∨ t = 0x0008
  else 1 ≤ t ∧ t ≤ 4

def preProcess (key : LsaKey) (body : Body) : Bool :=
  if p.isInterNetwork body ∧ (area.type = .TOTALLY_STUB ∨ area.type = .TOTALLY_NSSA) then false
  else if p.isInterRouter body ∧ area.type ≠ .NORMAL then true
  else if p.isExternal body then
    let isRouteNssa := key.lsaType = p.nssaType
    if area.type = .NORMAL then ¬ isRouteNssa
    else if area.type = .NSSA ∨ area.type = .TOTALLY_NSSA then isRouteNssa
    else false
  else true

/-- `evaluateIncomingLsa` at the time `now`: the decision, and the reason of the flooding. -/
def evaluateIncomingLsa (existing : Option (LsaRecord Body)) (ctx : LsaContext) (body : Body)
    (now : ℕ) : InstallResult × FloodInfo :=
  let out : InstallResult := { affectsSpfGraph := area.affectsSpfGraph ctx.key.lsaType }
  if !ctx.checksumValid then ({ out with shouldAck := false, action := .REJECT_INVALID }, ctx.info)
  else match existing with
    | none =>
      let out := { out with newLsa := true }
      if ctx.header.isMaxAge then
        ({ out with action := .FLUSH_MAX_AGE, shouldFlood := true, shouldStoreReplace := true },
          ctx.info)
      else
        ({ out with
            action := .INSTALL_NEWER
            shouldStoreReplace := true
            shouldFlood := true
            topologyChanged := out.affectsSpfGraph }, ctx.info)
    | some rec =>
      let out := { out with compare := compareLsaHeaders ctx.header rec.header }
      match out.compare with
      | .OLDER => ({ out with action := .IGNORE_OLDER }, ctx.info)
      | .SAME => ({ out with action := .IGNORE_DUPLICATE }, ctx.info)
      | .NEWER =>
        if now < rec.lastRefreshTime + area.lsaArrival then
          ({ out with action := .IGNORE_DUPLICATE, shouldAck := true, shouldFlood := false },
            ctx.info)
        else if ctx.header.age = OSPF_MAX_AGE then
          ({ out with
              action := .FLUSH_MAX_AGE
              shouldStoreReplace := true
              shouldFlood := true
              topologyChanged := out.affectsSpfGraph }, ctx.info)
        else if ctx.selfOriginatedKey ∧ rec.header.sequence ≤ ctx.header.sequence then
          ({ out with action := .FIGHT_BACK_SELF, shouldFightBack := true, shouldFlood := true },
            ctx.info)
        else
          let out :=
            { out with action := .INSTALL_NEWER, shouldStoreReplace := true, shouldFlood := true }
          if out.affectsSpfGraph then
            if p.compareLsaBody rec.body body then (out, { reason := .REFRESH })
            else ({ out with topologyChanged := true }, ctx.info)
          else (out, ctx.info)

/-! ## Processing -/

/-- `process`: the result, the reason of the flooding and the database. -/
def process (db : LsdbTable Body) (ctx : LsaContext) (body : Body) (now : ℕ) :
    AreaResult × FloodInfo × LsdbTable Body :=
  let (decision, info) := area.evaluateIncomingLsa p (db.find ctx.key) ctx body now
  let out : AreaResult := { decision }
  if decision.action = .REJECT_INVALID ∨ decision.action = .IGNORE_OLDER then (out, info, db)
  else
    let out := { out with flags := makeFlags ctx }
    if decision.action = .IGNORE_DUPLICATE then
      if decision.shouldUpdateAgeOnly then
        ({ out with record := (db.find ctx.key).map fun _ => ctx.key }, info,
          db.modify ctx.key fun r => { r with
            header := { r.header with age := decision.newStoredAge }
            lastRefreshTime := now
            flags := out.flags })
      else
        let (touched, db) := db.touchRefresh ctx.key now
        if touched then
          ({ out with record := (db.find ctx.key).map fun _ => ctx.key }, info,
            db.modify ctx.key fun r => { r with flags := out.flags })
        else (out, info, db)
    else (out, info, db)

/-- `onNewLsa`, without the timers of an area that has too many LSAs. -/
def onNewLsa (db : LsdbTable Body) : Bool :=
  match area.maxLsa with
  | none => true
  | some maxLsa => db.db.entries.length < maxLsa

def installLsa [Inhabited Body] (result : AreaResult) (db : LsdbTable Body) (ctx : LsaContext)
    (body : Body) (now : ℕ) : AreaResult × LsdbTable Body :=
  if result.decision.newLsa ∧ !area.onNewLsa db ∧ !ctx.selfOriginatedKey then (result, db)
  else if result.decision.action = .FIGHT_BACK_SELF then
    ({ result with
        record := some ctx.key
        decision := { result.decision with shouldFightBack := true } },
      db.upsertBody ctx.toIncomingLsaContext result.flags now body)
  else if result.decision.action = .FLUSH_MAX_AGE ∨ result.decision.shouldStoreReplace then
    ({ result with record := some ctx.key },
      db.upsertBody ctx.toIncomingLsaContext result.flags now body)
  else (result, db)

def evaluateDecision (result : AreaResult) (info : FloodInfo) (s : AreaState Body) :
    AreaState Body :=
  let s := match result.record with
    | some key =>
      if result.decision.shouldFlood then { s with floods := s.floods ++ [(key, info)] } else s
    | none => s
  if result.decision.affectsSpfGraph ∧ result.decision.topologyChanged then
    { s with spfRequests := s.spfRequests + 1 }
  else s

@[simp] theorem evaluateDecision_db (result : AreaResult) (info : FloodInfo) (s : AreaState Body) :
    (evaluateDecision result info s).db = s.db := by
  rw [evaluateDecision]
  cases result.record <;> split_ifs <;> rfl

/-- `processLsa`, for a body that may be moved. -/
def processLsa [Inhabited Body] (s : AreaState Body) (ctx : LsaContext) (body : Body) (now : ℕ) :
    Option AreaResult × AreaState Body :=
  if area.preProcess p ctx.key body then
    let (result, info, db) := area.process p s.db ctx body now
    let (result, db) := area.installLsa result db ctx body now
    (some result, evaluateDecision result info { s with db })
  else (none, s)

/-- `processLsa`, for a const body. -/
def processLsaConst (s : AreaState Body) (ctx : LsaContext) (body : Body) (now : ℕ) :
    Option AreaResult × AreaState Body :=
  let (result, info, db) := area.process p s.db ctx body now
  (some result, evaluateDecision result info { s with db })

end Area

end VirtualRouter.Ospf
