/-
  The route watcher of `RouteWatcher.hpp`, run by the queue of its `Rib`.

  The public calls (`watchRoute`, `watchAddress`, `watchProtocol`, `remove` and
  those of the RIB) take an id where they need one and post a task; the scheduler
  runs the posted tasks one at a time, in order.  An event of a run is a call or
  the execution of the first task.  A queue that is closed or full is not
  modelled.

  Watches remember routes by pointers (`Ptr`): into the routes of a bucket, or to
  a published copy.  `read` follows a pointer in the current memory; what a
  pointer to freed memory shows, and what a released `AddrWatchState` shows, is
  arbitrary and part of the event (`Env`), as are the answers of the user's
  callbacks and the calls they make.

  The nodes of a watch table stand in one list with their keys, those of one key
  next to each other in the order of their vector; an `unordered_map` is walked
  in the order of that list.
-/
import VirtualRouter.Routing.Rib

namespace VirtualRouter

open PrefixMap

/-- A pointer to a `RibEntry`: a slot of the routes of a bucket, or the copy a
    bucket has published. -/
inductive Ptr (W : ℕ) where
  | route (k : PrefixKey W) (p : RoutePtr)
  | copy (k : PrefixKey W) (addr : ℕ)
  deriving DecidableEq

structure WatchFilter where
  src : Option RouteSource := none
  processId : Option ℕ := none
  deriving DecidableEq

/-- What a node calls: the user's function with its context, or
    `addrWatchCallback` with the address of an `AddrWatchState`. -/
inductive Callback where
  | user (fn ctx : ℕ)
  | addrWatch (state : ℕ)
  deriving DecidableEq

structure WatchNode (W : ℕ) where
  id : ℕ
  fn : Callback
  filter : WatchFilter := {}
  lastKnown : Option (Ptr W) := none
  canceled : Bool := false

/-- `AddrWatchState`; `state` is its address in memory. -/
structure AddrWatchState (W : ℕ) where
  addr : BitVec W
  userFn : ℕ
  userCtx : ℕ
  filter : WatchFilter
  addrId : ℕ
  prefixId : ℕ
  lastUserRoute : Option (Ptr W)
  state : ℕ

inductive Call (W : ℕ) where
  | watchRoute (pfx : BitVec W) (length : ℕ) (fn ctx : ℕ) (filter : WatchFilter)
  | watchAddress (addr : BitVec W) (fn ctx : ℕ) (filter : WatchFilter)
  | watchProtocol (sp : SrcPid) (fn ctx : ℕ)
  | remove (id : ℕ)
  | rib (op : Rib.Op W)

inductive Task (W : ℕ) where
  | addPrefix (k : PrefixKey W) (id : ℕ) (fn : Callback) (filter : WatchFilter)
  | addAddress (addr : BitVec W) (id fn ctx : ℕ) (filter : WatchFilter)
  | addProtocol (sp : SrcPid) (id fn ctx : ℕ)
  | remove (id : ℕ)
  | rib (op : Rib.Op W)
  deriving DecidableEq

inductive WatchKind where
  | route
  | address
  | protocol
  deriving DecidableEq

/-- A call of the user's function: `CallbackCtx` and the function. -/
structure Invocation (W : ℕ) where
  kind : WatchKind
  fn : ℕ
  ctx : ℕ
  id : ℕ
  oldBest : Option (Ptr W)
  newBest : Option (Ptr W)
  deriving DecidableEq

/-- What the code does not determine in the execution of a task. -/
structure Env (W : ℕ) where
  /-- what freed memory shows where a route was -/
  freed : Ptr W → RibEntry W
  /-- what freed memory shows where an `AddrWatchState` was -/
  freedState : ℕ → AddrWatchState W
  /-- the answer of the user's function, and the calls it makes; the number
      counts the calls of such functions in this task -/
  reply : ℕ → Invocation W → Bool × List (Call W)

/-- Freed memory shows zeros; the user's functions answer `answer` and call
    nothing. -/
def Env.plain {W : ℕ} (answer : Bool) : Env W where
  freed _ := ⟨0, 0, .DYNAMIC, 0, 0, 0, 0, []⟩
  freedState _ := ⟨0, 0, 0, {}, 0, 0, none, 0⟩
  reply _ _ := (answer, [])

/-- `RouteWatcher`, with the task queue. -/
structure RouteWatcher (W : ℕ) where
  prefixWatchTable : List (PrefixKey W × WatchNode W) := []
  prefixIdMap : List (ℕ × PrefixKey W) := []
  protocolWatchTable : List (SrcPid × WatchNode W) := []
  protocolIdMap : List (ℕ × SrcPid) := []
  addrWatches : List (ℕ × AddrWatchState W) := []
  nextId : ℕ := 1
  availableIds : List ℕ := []
  queue : List (Task W) := []
  /-- the address of the next `AddrWatchState` -/
  nextState : ℕ := 0

section
variable {W : ℕ}

/-! ## Routes behind pointers -/

/-- The route a pointer shows. -/
def read (rib : Rib W) (env : Env W) (p : Ptr W) : RibEntry W :=
  match p with
  | .route k (block, slot) => ((rib.table k).bind fun b =>
      if b.block = block then b.routes[slot]? else none).getD (env.freed p)
  | .copy k addr => ((rib.table k).bind fun b => b.fibEntry.bind fun x =>
      if x.1 = addr then some x.2 else none).getD (env.freed p)

/-- The fields `routesEqual` compares; of the next hops, those in use. -/
def RibEntry.attrs (e : RibEntry W) : ℕ × ℕ × RouteSource × ℕ × List (NextHopPath W) :=
  (e.adminDistance, e.metric, e.source, e.processId, e.nextHops)

def routesEqual : Option (RibEntry W) → Option (RibEntry W) → Bool
  | none, none => true
  | some a, some b => a.attrs = b.attrs
  | _, _ => false

def WatchFilter.pass (f : WatchFilter) (r : RibEntry W) : Bool :=
  f.src.all (fun s => r.source = s) && f.processId.all (fun p => r.processId = p)

/-- `getBestRoute`, with the routes of a prefix `k`. -/
def getBestRoute (k : PrefixKey W) (b : RibBucket W) (p : RibEntry W → Bool) : Option (Ptr W) :=
  (bestSlot p b.routes).map fun x => .route k (b.block, x.1)

def computeBestForPrefix (k : PrefixKey W) (b : RibBucket W) (f : WatchFilter) : Option (Ptr W) :=
  if f.src.isSome ∨ f.processId.isSome then getBestRoute k b f.pass
  else b.bestEntry.map (.route k)

/-- `applyFilter`, on a pointer. -/
def applyFilter (rib : Rib W) (env : Env W) (f : WatchFilter) (p : Option (Ptr W)) :
    Option (Ptr W) := p.filter fun p => f.pass (read rib env p)

/-- The pointer `fib.lookup` returns. -/
def fibLookup (rib : Rib W) (a : BitVec W) : Option (Ptr W) :=
  (rib.lookup a).map fun x => .copy x.1 x.2.1

end

namespace RouteWatcher
variable {W : ℕ}

/-! ## Ids and tables -/

/-- `allocateId`: the id and the watcher left. -/
def allocateId (w : RouteWatcher W) : ℕ × RouteWatcher W :=
  match w.availableIds with
  | id :: ids => (id, { w with availableIds := ids })
  | [] => (w.nextId, { w with nextId := w.nextId + 1 })

def pushId (w : RouteWatcher W) (id : ℕ) : RouteWatcher W :=
  { w with availableIds := id :: w.availableIds }

def post (w : RouteWatcher W) (t : Task W) : RouteWatcher W := { w with queue := w.queue ++ [t] }

/-- `table[key].push_back(node)`: after the last node of the key. -/
def pushNode {κ : Type} [DecidableEq κ] (k : κ) (n : WatchNode W) :
    List (κ × WatchNode W) → List (κ × WatchNode W)
  | [] => [(k, n)]
  | x :: xs =>
    if x.1 = k ∧ ¬ xs.any (fun y => y.1 = k) then x :: (k, n) :: xs else x :: pushNode k n xs

/-- `map.emplace(key, value)`: an entry that exists is left. -/
def emplace {κ β : Type} [DecidableEq κ] (k : κ) (v : β) (m : List (κ × β)) : List (κ × β) :=
  if m.any (fun x => x.1 = k) then m else m ++ [(k, v)]

def eraseKey {κ β : Type} [DecidableEq κ] (k : κ) (m : List (κ × β)) : List (κ × β) :=
  m.filter fun x => x.1 ≠ k

def markCanceled {κ : Type} [DecidableEq κ] (k : κ) (id : ℕ) :
    List (κ × WatchNode W) → List (κ × WatchNode W)
  | [] => []
  | x :: xs => if x.1 = k ∧ x.2.id = id then (k, { x.2 with canceled := true }) :: xs
      else x :: markCanceled k id xs

/-! ## Calls -/

/-- `watchRoute`, on the masked key. -/
def watchRoute (w : RouteWatcher W) (pfx : BitVec W) (length : ℕ) (fn : Callback)
    (filter : WatchFilter) : ℕ × RouteWatcher W :=
  let r := w.allocateId
  (r.1, r.2.post (.addPrefix (Rib.keyOf pfx length) r.1 fn filter))

/-- A public call.  `watchAddress` looks the address up before it takes an id. -/
def call (rib : Rib W) (env : Env W) (w : RouteWatcher W) : Call W → RouteWatcher W
  | .watchRoute pfx length fn ctx filter => (w.watchRoute pfx length (.user fn ctx) filter).2
  | .watchAddress addr fn ctx filter =>
    if (applyFilter rib env filter (fibLookup rib addr)).isNone then w
    else
      let r := w.allocateId
      r.2.post (.addAddress addr r.1 fn ctx filter)
  | .watchProtocol sp fn ctx =>
    let r := w.allocateId
    r.2.post (.addProtocol sp r.1 fn ctx)
  | .remove id => w.post (.remove id)
  | .rib op => w.post (.rib op)

/-! ## Callbacks -/

/-- The watcher and the calls of the user's functions made so far in a task. -/
abbrev Log (W : ℕ) := RouteWatcher W × List (Invocation W)

/-- A call of the user's function, with the calls that it makes in turn. -/
def invoke (rib : Rib W) (env : Env W) (i : Invocation W) (s : Log W) : Bool × Log W :=
  let r := env.reply s.2.length i
  (r.1, r.2.foldl (call rib env) s.1, s.2 ++ [i])

/-- The `AddrWatchState` at an address. -/
def stateAt (env : Env W) (w : RouteWatcher W) (state : ℕ) : AddrWatchState W :=
  { ((w.addrWatches.find? fun x => x.2.state = state).map (·.2)).getD (env.freedState state) with state }

/-- A write to the `AddrWatchState` at an address; one to freed memory is lost. -/
def writeState (w : RouteWatcher W) (state : ℕ) (f : AddrWatchState W → AddrWatchState W) :
    RouteWatcher W :=
  { w with addrWatches := w.addrWatches.map fun x => if x.2.state = state then (x.1, f x.2) else x }

/-- The call of the user's function in `addrWatchCallback`, if the route differs
    from the last one delivered. -/
def deliver (rib : Rib W) (env : Env W) (st : AddrWatchState W) (cur : Option (Ptr W)) (s : Log W) :
    Bool × Log W :=
  if routesEqual (st.lastUserRoute.map (read rib env)) (cur.map (read rib env)) then (false, s)
  else invoke rib env ⟨.address, st.userFn, st.userCtx, st.addrId, st.lastUserRoute, cur⟩
    (s.1.writeState st.state (fun a => { a with lastUserRoute := cur }), s.2)

/-- Re-pin an address watch to the prefix of the route `cur`. -/
def repin (rib : Rib W) (env : Env W) (st : AddrWatchState W) (cur : Ptr W) (w : RouteWatcher W) :
    RouteWatcher W :=
  let r := w.watchRoute (read rib env cur).pfx (read rib env cur).length (.addrWatch st.state) {}
  r.2.writeState st.state fun a => { a with prefixId := r.1 }

def releaseAddr (st : AddrWatchState W) (w : RouteWatcher W) : RouteWatcher W :=
  let w := w.pushId st.addrId
  { w with addrWatches := eraseKey st.addrId w.addrWatches }

/-- The route of an address watch: the new best route of its prefix or, when the
    prefix is withdrawn, the match that the forwarding table has. -/
def resolve (rib : Rib W) (env : Env W) (st : AddrWatchState W) (newBest : Option (Ptr W)) :
    Option (Ptr W) :=
  applyFilter rib env st.filter (if newBest.isNone then fibLookup rib st.addr else newBest)

def addrWatchCallback (rib : Rib W) (env : Env W) (state : ℕ) (newBest : Option (Ptr W)) (s : Log W) :
    Bool × Log W :=
  let st := s.1.stateAt env state
  let prefixWithdrawn := newBest.isNone
  let cur := resolve rib env st newBest
  let r := deliver rib env st cur s
  match cur with
  | some c =>
    if r.1 then (true, releaseAddr st r.2.1, r.2.2)
    else if prefixWithdrawn then (true, repin rib env st c r.2.1, r.2.2)
    else (false, r.2)
  | none =>
    if prefixWithdrawn ∨ r.1 then (true, releaseAddr st r.2.1, r.2.2) else (false, r.2)

def callNode (rib : Rib W) (env : Env W) (kind : WatchKind) (n : WatchNode W)
    (old cur : Option (Ptr W)) (s : Log W) : Bool × Log W :=
  match n.fn with
  | .user fn ctx => invoke rib env ⟨kind, fn, ctx, n.id, old, cur⟩ s
  | .addrWatch state => addrWatchCallback rib env state cur s

/-- The body of the loop of `fireNodes`, on a node that is not canceled; a node
    that cancels itself gives its id back. -/
def fireNode (rib : Rib W) (env : Env W) (kind : WatchKind) (eraseId : ℕ → RouteWatcher W → RouteWatcher W)
    (cur : Option (Ptr W)) (n : WatchNode W) (s : Log W) : Option (WatchNode W) × Log W :=
  if routesEqual (n.lastKnown.map (read rib env)) (cur.map (read rib env)) then (some n, s)
  else
    let r := callNode rib env kind n n.lastKnown cur s
    if r.1 then (none, eraseId n.id (r.2.1.pushId n.id), r.2.2)
    else (some { n with lastKnown := cur }, r.2)

/-- `fireNodes`, on the nodes of the keys that `fire` selects: the nodes left,
    and the state. -/
def fireNodes {κ : Type} (rib : Rib W) (env : Env W) (kind : WatchKind)
    (eraseId : ℕ → RouteWatcher W → RouteWatcher W) (fire : κ → Bool)
    (getCur : WatchNode W → Option (Ptr W)) :
    List (κ × WatchNode W) → Log W → List (κ × WatchNode W) × Log W
  | [], s => ([], s)
  | (k, n) :: xs, s =>
    if fire k then
      if n.canceled then fireNodes rib env kind eraseId fire getCur xs s
      else
        let r := fireNode rib env kind eraseId (getCur n) n s
        let rest := fireNodes rib env kind eraseId fire getCur xs r.2
        ((r.1.map fun n' => (k, n')).toList ++ rest.1, rest.2)
    else
      let rest := fireNodes rib env kind eraseId fire getCur xs s
      ((k, n) :: rest.1, rest.2)

/-! ## Announcements -/

def erasePrefixId (id : ℕ) (w : RouteWatcher W) : RouteWatcher W :=
  { w with prefixIdMap := eraseKey id w.prefixIdMap }

def eraseProtocolId (id : ℕ) (w : RouteWatcher W) : RouteWatcher W :=
  { w with protocolIdMap := eraseKey id w.protocolIdMap }

def firePrefix (rib : Rib W) (env : Env W) (k : PrefixKey W)
    (getCur : WatchNode W → Option (Ptr W)) (s : Log W) : Log W :=
  let r := fireNodes rib env .route erasePrefixId (· = k) getCur s.1.prefixWatchTable s
  ({ r.2.1 with prefixWatchTable := r.1 }, r.2.2)

/-- Fire the protocol watches of the keys that `fire` selects. -/
def fireProtocol (rib : Rib W) (env : Env W) (fire : SrcPid → Bool) (cur : Option (Ptr W))
    (s : Log W) : Log W :=
  let r := fireNodes rib env .protocol eraseProtocolId fire (fun _ => cur) s.1.protocolWatchTable s
  ({ r.2.1 with protocolWatchTable := r.1 }, r.2.2)

/-- The process behind a pointer. -/
def srcPidAt (rib : Rib W) (env : Env W) (k : PrefixKey W) (p : RoutePtr) : SrcPid :=
  (read rib env (.route k p)).srcPid

/-- The protocol part of `announceRouteChange`. -/
def announceProtocol (rib : Rib W) (env : Env W) (k : PrefixKey W) (b : RibBucket W) (s : Log W) :
    Log W :=
  if b.routes.isEmpty then fireProtocol rib env (fun _ => true) none s
  else
    let best := fun sp : SrcPid => getBestRoute k b fun r => r.srcPid = sp
    -- the watches of the process that had the best route
    let s := match b.prevBest with
      | none => s
      | some p =>
        let sp := srcPidAt rib env k p
        fireProtocol rib env (· = sp) (best sp) s
    -- the watches of the process that has it now, unless they are the same
    match b.bestEntry with
    | none => s
    | some p =>
      let sp := srcPidAt rib env k p
      if b.prevBest.any fun q => srcPidAt rib env k q = sp then s
      else fireProtocol rib env (· = sp) (best sp) s

def announceRouteChange (rib : Rib W) (env : Env W) (k : PrefixKey W) (b : RibBucket W) (s : Log W) :
    Log W :=
  let key := Rib.keyOf k.1 k.2
  let s := if b.bestEntry ≠ b.prevBest then
      firePrefix rib env key (fun n => computeBestForPrefix k b n.filter) s
    else s
  announceProtocol rib env k b s

/-- `fireAll` of `announceAllGone`, over one table. -/
def fireAll {κ : Type} (rib : Rib W) (env : Env W) (kind : WatchKind) :
    List (κ × WatchNode W) → Log W → Log W
  | [], s => s
  | (_, n) :: xs, s =>
    let s := (s.1.pushId n.id, s.2)
    if n.canceled ∨ n.lastKnown.isNone then fireAll rib env kind xs s
    else fireAll rib env kind xs (callNode rib env kind n n.lastKnown none s).2

/-- The last loop of `announceAllGone`. -/
def fireAddrs (rib : Rib W) (env : Env W) : List (ℕ × AddrWatchState W) → Log W → Log W
  | [], s => s
  | (id, st) :: xs, s =>
    let s := (s.1.pushId id, s.2)
    if st.lastUserRoute.isNone then fireAddrs rib env xs s
    else fireAddrs rib env xs
      (invoke rib env ⟨.address, st.userFn, st.userCtx, id, st.lastUserRoute, none⟩ s).2

def announceAllGone (rib : Rib W) (env : Env W) (s : Log W) : Log W :=
  let s := fireAll rib env .route s.1.prefixWatchTable s
  let s := ({ s.1 with prefixWatchTable := [], prefixIdMap := [] }, s.2)
  let s := fireAll rib env .protocol s.1.protocolWatchTable s
  let s := ({ s.1 with protocolWatchTable := [], protocolIdMap := [] }, s.2)
  let s := fireAddrs rib env s.1.addrWatches s
  ({ s.1 with addrWatches := [] }, s.2)

/-! ## Tasks -/

def removeTask (w : RouteWatcher W) (id : ℕ) : RouteWatcher W :=
  match w.prefixIdMap.find? fun x => x.1 = id with
  | some x => erasePrefixId id
      { w.pushId id with prefixWatchTable := markCanceled x.2 id w.prefixWatchTable }
  | none =>
    match w.protocolIdMap.find? fun x => x.1 = id with
    | some x => eraseProtocolId id
        { w.pushId id with protocolWatchTable := markCanceled x.2 id w.protocolWatchTable }
    | none =>
      match w.addrWatches.find? fun x => x.1 = id with
      | none => w
      | some x =>
        let w := if x.2.prefixId ≠ 0 then w.post (.remove x.2.prefixId) else w
        { w.pushId id with addrWatches := eraseKey id w.addrWatches }

def addAddress (rib : Rib W) (env : Env W) (w : RouteWatcher W) (addr : BitVec W) (id fn ctx : ℕ)
    (filter : WatchFilter) : RouteWatcher W :=
  match applyFilter rib env filter (fibLookup rib addr) with
  | none => w.pushId id
  | some cur =>
    let new : AddrWatchState W := ⟨addr, fn, ctx, filter, id, 0, some cur, w.nextState⟩
    let watches := emplace id new w.addrWatches
    -- the state at the id, which is the new one unless the id was taken
    let st := ((watches.find? fun x => x.1 = id).map (·.2)).getD new
    repin rib env st cur { w with addrWatches := watches, nextState := w.nextState + 1 }

end RouteWatcher

structure RibSystem (W : ℕ) where
  rib : Rib W := {}
  watcher : RouteWatcher W := {}

namespace RibSystem
variable {W : ℕ}

inductive Event (W : ℕ) where
  | call (c : Call W) (env : Env W)
  | exec (env : Env W)

/-- The prefix a call of the RIB is about. -/
def opKey : Rib.Op W → Option (PrefixKey W)
  | .install e => some (Rib.keyOf e.pfx e.length)
  | .withdraw pfx length _ _ => some (Rib.keyOf pfx length)
  | .clear => none

def announced (rib : Rib W) : Rib.Op W → Option (RibBucket W)
  | .install e => (rib.installRoute e).2
  | .withdraw pfx length src pid => (rib.withdrawRoute pfx length src pid).2
  | .clear => none

def execOp (rib : Rib W) (env : Env W) (w : RouteWatcher W) (op : Rib.Op W) :
    Rib W × RouteWatcher.Log W :=
  let rib' := rib.step op
  (rib', match opKey op with
    | none => RouteWatcher.announceAllGone rib' env (w, [])
    | some k => match announced rib op with
      | none => (w, [])
      | some b => RouteWatcher.announceRouteChange rib' env k b (w, []))

def execTask (rib : Rib W) (env : Env W) (w : RouteWatcher W) :
    Task W → Rib W × RouteWatcher.Log W
  | .addPrefix k id fn filter =>
    (rib, { w with
      prefixIdMap := RouteWatcher.emplace id k w.prefixIdMap
      prefixWatchTable := RouteWatcher.pushNode k { id, fn, filter } w.prefixWatchTable }, [])
  | .addAddress addr id fn ctx filter => (rib, w.addAddress rib env addr id fn ctx filter, [])
  | .addProtocol sp id fn ctx =>
    (rib, { w with
      protocolIdMap := RouteWatcher.emplace id sp w.protocolIdMap
      protocolWatchTable := RouteWatcher.pushNode sp { id, fn := .user fn ctx } w.protocolWatchTable }, [])
  | .remove id => (rib, w.removeTask id, [])
  | .rib op => execOp rib env w op

/-- An event: the system after it, and the calls of the user's functions. -/
def exec (s : RibSystem W) : Event W → RibSystem W × List (Invocation W)
  | .call c env => ({ s with watcher := s.watcher.call s.rib env c }, [])
  | .exec env =>
    match s.watcher.queue with
    | [] => (s, [])
    | t :: ts =>
      let r := execTask s.rib env { s.watcher with queue := ts } t
      (⟨r.1, r.2.1⟩, r.2.2)

def step (s : RibSystem W) (e : Event W) : RibSystem W := (s.exec e).1

def calls (s : RibSystem W) (e : Event W) : List (Invocation W) := (s.exec e).2

end RibSystem

end VirtualRouter
