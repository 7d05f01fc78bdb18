/-
  The election of the designated routers (`ospf/interface/OspfInterface.cpp`).

  * `Segment`: the interface as the election finds it, with the neighbour table in the order in
    which it is walked; the router's id is not zero and no neighbour has it, as the process
    and the receive path see to;
  * `Segment.election`, with the loops `runElection` and `redeclare` of its two passes;
  * `Pass` and `Elects`: the procedure of RFC 2328, section 9.4, as relations on the set of
    the routers that take part, and `Segment.Elected`, what it leaves on the interface.

  A router declares itself designated when it lists itself as such, and backup when it lists
  itself as backup and does not declare itself designated.  What starts an adjacency comes
  from `Neighbor`; that the originator is told is a flag of the outcome.
-/
import VirtualRouter.Lib.KeyOrder
import VirtualRouter.Ospf.Neighbor

namespace VirtualRouter.Ospf

open KeyOrder

/-! ## Candidates -/

structure Candidate where
  rid : UInt32
  priority : UInt8
  claimedDr : UInt32
  claimedBdr : UInt32
  deriving DecidableEq, Repr

namespace Candidate

/-- `best`: higher priority wins, then the higher id. -/
def best (a b : Candidate) : Bool :=
  if a.priority ≠ b.priority then b.priority < a.priority else b.rid < a.rid

/-- The router lists itself as designated router. -/
def DeclaresDr (c : Candidate) : Prop := c.claimedDr = c.rid

/-- The router lists itself as backup, and not as designated router. -/
def DeclaresBdr (c : Candidate) : Prop := ¬ c.DeclaresDr ∧ c.claimedBdr = c.rid

instance (c : Candidate) : Decidable c.DeclaresDr := inferInstanceAs (Decidable (_ = _))

instance (c : Candidate) : Decidable c.DeclaresBdr := inferInstanceAs (Decidable (_ ∧ _))

end Candidate

/-- The id of an elected router, zero for none. -/
def ridOf : Option Candidate → UInt32
  | none => 0
  | some c => c.rid

/-! ## The election of the source -/

/-- The loop over the candidates for backup: the best of those that claim it, and the best. -/
def electBdr (eligible : List Candidate) : Option Candidate × Option Candidate :=
  eligible.foldl (fun s c =>
    if c.claimedDr = c.rid then s
    else (if c.claimedBdr = c.rid then takeBest Candidate.best s.1 c else s.1,
      takeBest Candidate.best s.2 c)) (none, none)

/-- The loop over those that declare themselves designated. -/
def electDr (eligible : List Candidate) : Option Candidate :=
  eligible.foldl (fun s c =>
    if c.claimedDr = c.rid then takeBest Candidate.best s c else s) none

/-- `runElection`: the ids of the designated router and the backup.  Its arguments, the ids
    before, are not read. -/
def runElection (eligible : List Candidate) : UInt32 × UInt32 :=
  let (newBdrCand, fallbackBdrCand) := electBdr eligible
  let newBdr := match newBdrCand with
    | some c => c.rid
    | none => ridOf fallbackBdrCand
  let newDr := match electDr eligible with
    | some c => c.rid
    | none => newBdr
  (newDr, newBdr)

/-- The router's own claims after the first pass: the loop ends at the first entry with its id. -/
def redeclare (selfRid newDr newBdr : UInt32) : List Candidate → List Candidate
  | [] => []
  | c :: rest =>
    if c.rid = selfRid then
      { c with
        claimedDr := if newDr = selfRid then selfRid else 0
        claimedBdr := if newBdr = selfRid then selfRid else 0 } :: rest
    else c :: redeclare selfRid newDr newBdr rest

structure Designation where
  rid : UInt32 := 0
  ip : BitVec 128 := 0
  deriving DecidableEq, Repr

/-- `Neighbor`, with its address. -/
structure SegmentNeighbor extends Neighbor where
  ipAddress : BitVec 128

/-- `OspfInterface`, as far as its election reads and writes it. -/
structure Segment where
  routerId : UInt32
  priority : UInt8
  dr : Designation
  bdr : Designation
  isDr : Bool
  isBdr : Bool
  neighbors : List (UInt32 × SegmentNeighbor)
  routerId_ne : routerId ≠ 0
  nodup : (neighbors.map Prod.fst).Nodup
  self_absent : routerId ∉ neighbors.map Prod.fst

namespace Segment

/-- `ntable.lookup`. -/
def lookup (seg : Segment) (rid : UInt32) : Option SegmentNeighbor := seg.neighbors.lookup rid

def setDr (seg : Segment) (candDr : UInt32) : Segment :=
  match seg.lookup candDr with
  | none => seg
  | some nbr => { seg with dr := ⟨candDr, nbr.ipAddress⟩ }

def setBdr (seg : Segment) (candBdr : UInt32) : Segment :=
  match seg.lookup candBdr with
  | none => seg
  | some nbr => { seg with bdr := ⟨candBdr, nbr.ipAddress⟩ }

def self (seg : Segment) : Candidate := ⟨seg.routerId, seg.priority, seg.dr.rid, seg.bdr.rid⟩

def candidate (e : UInt32 × SegmentNeighbor) : Option Candidate :=
  if e.2.state.rank < NeighborState.TWOWAY.rank then none
  else if e.2.priority = 0 then none
  else some ⟨e.1, e.2.priority, e.2.dr, e.2.bdr⟩

/-- The neighbours that take part. -/
def others (seg : Segment) : List Candidate := seg.neighbors.filterMap candidate

def eligible (seg : Segment) : List Candidate :=
  if 0 < seg.priority then seg.self :: seg.others else seg.others

variable {Body : Type}

/-- `setState(EXSTART)` of a neighbour that was in TWOWAY. -/
def startExchange (iface : OspfInterface Body) (nbr : SegmentNeighbor) :
    SegmentNeighbor × List OspfPacket :=
  if nbr.state = .TWOWAY then
    match iface.setState 1 nbr.toNeighbor .EXSTART with
    | none => (nbr, [])
    | some (started, sent) => ({ nbr with toNeighbor := started }, sent)
  else (nbr, [])

/-- The loop over the neighbours when the election changed something. -/
def startExchanges (iface : OspfInterface Body) (seg : Segment) : Segment where
  routerId := seg.routerId
  priority := seg.priority
  dr := seg.dr
  bdr := seg.bdr
  isDr := seg.isDr
  isBdr := seg.isBdr
  neighbors := seg.neighbors.map fun e => (e.1, (startExchange iface e.2).1)
  routerId_ne := seg.routerId_ne
  nodup := by
    rw [List.map_map]
    exact seg.nodup
  self_absent := by
    rw [List.map_map]
    exact seg.self_absent

/-- What an election leaves, the packets it sends, and whether `updateInterface` is called. -/
structure Outcome where
  segment : Segment
  sent : List OspfPacket := []
  updated : Bool := false

def finalElection (seg : Segment) : UInt32 × UInt32 :=
  let (newDr, newBdr) := runElection seg.eligible
  runElection (redeclare seg.routerId newDr newBdr seg.eligible)

def election (iface : OspfInterface Body) (seg : Segment) : Outcome :=
  if seg.eligible = [] then { segment := seg }
  else
    let (finalDr, finalBdr) := seg.finalElection
    let drChanged := finalDr ≠ seg.dr.rid
    let bdrChanged := finalBdr ≠ seg.bdr.rid
    let seg := (seg.setDr finalDr).setBdr finalBdr
    let seg := { seg with isDr := finalDr = seg.routerId, isBdr := finalBdr = seg.routerId }
    if drChanged ∨ bdrChanged then
      { segment := seg.startExchanges iface
        sent := seg.neighbors.flatMap fun e => (startExchange iface e.2).2
        updated := true }
    else { segment := seg }

end Segment

/-! ## The procedure of the RFC -/

/-- The order of the routers: by priority, then by id. -/
def Candidate.Above (a b : Candidate) : Prop :=
  b.priority < a.priority ∨ a.priority = b.priority ∧ b.rid < a.rid

/-- Step 2: the backup is one of those that declare themselves backup, else one of those that do
    not declare themselves designated. -/
def Backup (l : List Candidate) (b : Option Candidate) : Prop :=
  if ∃ c ∈ l, c.DeclaresBdr then Foremost Candidate.Above Candidate.DeclaresBdr l b
  else Foremost Candidate.Above (fun c => ¬ c.DeclaresDr) l b

/-- Step 3: the designated router is one of those that declare themselves so, else the backup. -/
def Designated (l : List Candidate) (b d : Option Candidate) : Prop :=
  if ∃ c ∈ l, c.DeclaresDr then Foremost Candidate.Above Candidate.DeclaresDr l d else d = b

/-- Steps 2 and 3. -/
structure Pass (l : List Candidate) (d b : Option Candidate) : Prop where
  backup : Backup l b
  designated : Designated l b d

/-- Router `s` lists the routers that were elected. -/
def Candidate.lists (s : UInt32) (d b : Option Candidate) (c : Candidate) : Candidate :=
  if c.rid = s then { c with claimedDr := ridOf d, claimedBdr := ridOf b } else c

abbrev listed (s : UInt32) (d b : Option Candidate) (l : List Candidate) : List Candidate :=
  l.map (Candidate.lists s d b)

/-- Router `s` has the same part as before, when `prevDr` and `prevBdr` were elected. -/
def SameRole (s prevDr prevBdr : UInt32) (d b : Option Candidate) : Prop :=
  (ridOf d = s ↔ prevDr = s) ∧ (ridOf b = s ↔ prevBdr = s)

/-- Steps 2 to 4: a second pass where the router's own part has changed. -/
def Elects (s prevDr prevBdr : UInt32) (l : List Candidate) (d b : Option Candidate) : Prop :=
  ∃ d₁ b₁, Pass l d₁ b₁ ∧
    (SameRole s prevDr prevBdr d₁ b₁ ∧ d = d₁ ∧ b = b₁ ∨
      ¬ SameRole s prevDr prevBdr d₁ b₁ ∧ Pass (listed s d₁ b₁ l) d b)

namespace Segment

/-- A designation that names the elected router, with its address where it is a neighbour. -/
def Names (seg : Segment) (x : Designation) : Option Candidate → Prop
  | none => x.rid = 0
  | some c => x.rid = c.rid ∧ ∀ nbr, seg.lookup c.rid = some nbr → x.ip = nbr.ipAddress

/-- `out` has what the procedure elects on `seg`. -/
def Elected (seg out : Segment) : Prop :=
  ∃ d b, Elects seg.routerId seg.dr.rid seg.bdr.rid seg.eligible d b ∧
    seg.Names out.dr d ∧ seg.Names out.bdr b ∧
    (out.isDr = true ↔ ridOf d = seg.routerId) ∧ (out.isBdr = true ↔ ridOf b = seg.routerId)

/-- The same interface, with its neighbour table walked in another order. -/
structure Reordered (seg seg' : Segment) : Prop where
  routerId : seg'.routerId = seg.routerId
  priority : seg'.priority = seg.priority
  dr : seg'.dr = seg.dr
  bdr : seg'.bdr = seg.bdr
  isDr : seg'.isDr = seg.isDr
  isBdr : seg'.isBdr = seg.isBdr
  neighbors : seg'.neighbors.Perm seg.neighbors

/-- The election leaves what the procedure elects, in whatever order the table is walked. -/
def Complies (iface : OspfInterface Body) (seg : Segment) : Prop :=
  ∀ seg', seg.Reordered seg' → seg.Elected (seg'.election iface).segment

end Segment

end VirtualRouter.Ospf
