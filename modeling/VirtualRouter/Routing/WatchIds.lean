/-
  The ids of the watches.

  An id is free (on the recycle stack), or it belongs to one of these: a
  registered node that is not canceled, an address watch, a registration that has
  been posted and not yet run.  `IdsInv w held prox` says that these lists have no
  id in common, where `held` are the ids of the registered nodes; `prox` are the
  nodes of `addrWatchCallback` among them, with the state each of them points to.
  Every operation of the watcher moves an id from one list to another.

  `idsOk` singles out the tasks that keep this.  The others go wrong in one of
  three ways: `announceAllGone` gives back the id of a canceled node that
  `remove` has given back already; `remove` marks an older, canceled node with the
  recycled id and leaves the live one in the table; the proxy of an address watch
  that is released but not yet unregistered is called and reads freed memory.
-/
import VirtualRouter.Lib.Run
import VirtualRouter.Routing.RouteWatcher

namespace VirtualRouter

namespace RouteWatcher
variable {W : ℕ} {κ : Type}

/-! ## Where the ids are -/

def liveIds (t : List (κ × WatchNode W)) : List ℕ :=
  t.filterMap fun x => if x.2.canceled then none else some x.2.id

def pendingId : Task W → Option ℕ
  | .addPrefix _ id _ _ => some id
  | .addAddress _ id _ _ _ => some id
  | .addProtocol _ id _ _ => some id
  | _ => none

def pendingIds (q : List (Task W)) : List ℕ := q.filterMap pendingId

def usedIds (w : RouteWatcher W) : List ℕ :=
  liveIds w.prefixWatchTable ++ liveIds w.protocolWatchTable ++
    (w.addrWatches.map Prod.fst ++ pendingIds w.queue)

/-- **Ids are unique**: none is twice on the stack, none is on it while a live
    watch uses it, and `allocateId` returns none that a live watch uses. -/
structure IdsUnique (w : RouteWatcher W) : Prop where
  nodup : w.availableIds.Nodup
  recycled : ∀ id ∈ w.availableIds, id ∉ usedIds w
  allocated : (allocateId w).1 ∉ usedIds w

/-- The node of an address watch, with the state it points to. -/
def proxyOf (n : WatchNode W) : Option (ℕ × ℕ) :=
  match n.fn with
  | .user _ _ => none
  | .addrWatch state => some (n.id, state)

def proxies (t : List (κ × WatchNode W)) : List (ℕ × ℕ) :=
  t.filterMap fun x => if x.2.canceled then none else proxyOf x.2

/-- The posted registrations of such nodes. -/
def pendingProxies (q : List (Task W)) : List (ℕ × ℕ) :=
  q.filterMap fun
    | .addPrefix _ id (.addrWatch state) _ => some (id, state)
    | _ => none

def StateAlive (w : RouteWatcher W) (state : ℕ) : Prop := ∃ x ∈ w.addrWatches, x.2.state = state

instance (w : RouteWatcher W) (state : ℕ) : Decidable (StateAlive w state) := by
  unfold StateAlive; infer_instance

/-! ## The tasks that keep the ids apart -/

/-- The first node of the key with this id is not canceled. -/
def firstLive [DecidableEq κ] (k : κ) (id : ℕ) (t : List (κ × WatchNode W)) : Prop :=
  ∀ x ∈ t.find? (fun x => x.1 = k ∧ x.2.id = id), x.2.canceled = false

/-- The route a node remembers differs from `cur`. -/
def Differs (rib : Rib W) (env : Env W) (n : WatchNode W) (cur : Option (Ptr W)) : Prop :=
  routesEqual (n.lastKnown.map (read rib env)) (cur.map (read rib env)) = false

/-- The nodes of prefix watches that a call of the RIB calls, if they are not
    canceled. -/
def Reached (rib : Rib W) (env : Env W) (op : Rib.Op W) (x : PrefixKey W × WatchNode W) : Prop :=
  match op with
  | .clear => x.2.lastKnown ≠ none
  | op => RibSystem.opKey op = some x.1 ∧ ∃ b ∈ RibSystem.announced rib op,
      b.bestEntry ≠ b.prevBest ∧
        Differs (rib.step op) env x.2 (computeBestForPrefix x.1 b x.2.filter)

def proxiesAlive (rib : Rib W) (env : Env W) (w : RouteWatcher W) (op : Rib.Op W) : Prop :=
  ∀ x ∈ w.prefixWatchTable, x.2.canceled = false → Reached rib env op x →
    ∀ p ∈ proxyOf x.2, StateAlive w p.2

instance (rib : Rib W) (env : Env W) (n : WatchNode W) (cur : Option (Ptr W)) :
    Decidable (Differs rib env n cur) := by unfold Differs; infer_instance

instance (rib : Rib W) (env : Env W) (op : Rib.Op W) (x : PrefixKey W × WatchNode W) :
    Decidable (Reached rib env op x) :=
  match op with
  | .clear => inferInstanceAs (Decidable (_ ≠ _))
  | .install _ => inferInstanceAs (Decidable (_ ∧ ∃ _ ∈ RibSystem.announced _ _, _ ∧ _))
  | .withdraw .. => inferInstanceAs (Decidable (_ ∧ ∃ _ ∈ RibSystem.announced _ _, _ ∧ _))

instance (rib : Rib W) (env : Env W) (w : RouteWatcher W) (op : Rib.Op W) :
    Decidable (proxiesAlive rib env w op) := by unfold proxiesAlive; infer_instance

instance [DecidableEq κ] (k : κ) (id : ℕ) (t : List (κ × WatchNode W)) :
    Decidable (firstLive k id t) := by unfold firstLive; infer_instance

def taskOk (rib : Rib W) (env : Env W) (w : RouteWatcher W) : Task W → Prop
  | .remove id =>
    (∀ x ∈ w.prefixIdMap.find? fun x => x.1 = id, firstLive x.2 id w.prefixWatchTable) ∧
      ∀ x ∈ w.protocolIdMap.find? fun x => x.1 = id, firstLive x.2 id w.protocolWatchTable
  | .rib op => proxiesAlive rib env w op ∧ (op = .clear →
      (∀ x ∈ w.prefixWatchTable, x.2.canceled = false) ∧
        ∀ x ∈ w.protocolWatchTable, x.2.canceled = false)
  | _ => True

instance (rib : Rib W) (env : Env W) (w : RouteWatcher W) (t : Task W) :
    Decidable (taskOk rib env w t) :=
  match t with
  | .remove _ => inferInstanceAs (Decidable (_ ∧ _))
  | .rib _ => inferInstanceAs (Decidable (_ ∧ _))
  | .addPrefix .. | .addAddress .. | .addProtocol .. => isTrue trivial

/-! ## What callbacks leave

A callback gives ids back, takes ids, posts tasks and edits address watches; the
tables and the id maps are edited only by the loops around it. -/

structure SameTables (w w' : RouteWatcher W) : Prop where
  prefixTable : w'.prefixWatchTable = w.prefixWatchTable
  prefixIds : w'.prefixIdMap = w.prefixIdMap
  protocolTable : w'.protocolWatchTable = w.protocolWatchTable
  protocolIds : w'.protocolIdMap = w.protocolIdMap
  nextState : w'.nextState = w.nextState

namespace SameTables
variable {w w' w'' : RouteWatcher W}

theorem refl (w : RouteWatcher W) : SameTables w w := ⟨rfl, rfl, rfl, rfl, rfl⟩

theorem trans (h : SameTables w w') (h' : SameTables w' w'') : SameTables w w'' :=
  ⟨h'.1.trans h.1, h'.2.trans h.2, h'.3.trans h.3, h'.4.trans h.4, h'.5.trans h.5⟩

theorem allocateId (w : RouteWatcher W) : SameTables w w.allocateId.2 := by
  unfold RouteWatcher.allocateId
  split <;> exact ⟨rfl, rfl, rfl, rfl, rfl⟩

theorem post (w : RouteWatcher W) (t : Task W) : SameTables w (w.post t) := ⟨rfl, rfl, rfl, rfl, rfl⟩

theorem pushId (w : RouteWatcher W) (id : ℕ) : SameTables w (w.pushId id) := ⟨rfl, rfl, rfl, rfl, rfl⟩

theorem call (rib : Rib W) (env : Env W) (w : RouteWatcher W) (c : Call W) :
    SameTables w (w.call rib env c) := by
  cases c with
  | watchRoute => exact (allocateId w).trans (post _ _)
  | watchAddress =>
    simp only [RouteWatcher.call]
    split_ifs
    · exact refl w
    · exact (allocateId w).trans (post _ _)
  | watchProtocol => exact (allocateId w).trans (post _ _)
  | remove => exact post _ _
  | rib => exact post _ _

theorem invoke (rib : Rib W) (env : Env W) (i : Invocation W) (s : Log W) :
    SameTables s.1 (invoke rib env i s).2.1 := by
  simp only [RouteWatcher.invoke]
  generalize s.1 = w
  induction (env.reply s.2.length i).2 generalizing w with
  | nil => exact refl w
  | cons c cs ih => exact (call rib env w c).trans (ih _)

theorem deliver (rib : Rib W) (env : Env W) (st : AddrWatchState W) (cur : Option (Ptr W))
    (s : Log W) : SameTables s.1 (deliver rib env st cur s).2.1 := by
  unfold RouteWatcher.deliver
  split_ifs
  · exact refl _
  · refine SameTables.trans ?_ (invoke ..)
    exact ⟨rfl, rfl, rfl, rfl, rfl⟩

theorem repin (rib : Rib W) (env : Env W) (st : AddrWatchState W) (cur : Ptr W)
    (w : RouteWatcher W) : SameTables w (repin rib env st cur w) := by
  have h := allocateId w
  exact ⟨h.1, h.2, h.3, h.4, h.5⟩

theorem addrWatchCallback (rib : Rib W) (env : Env W) (state : ℕ) (cur : Option (Ptr W))
    (s : Log W) : SameTables s.1 (addrWatchCallback rib env state cur s).2.1 := by
  have hd := deliver rib env (s.1.stateAt env state) (resolve rib env (s.1.stateAt env state) cur) s
  have hrel : ∀ (st : AddrWatchState W) (w : RouteWatcher W), SameTables w (releaseAddr st w) :=
    fun _ _ => ⟨rfl, rfl, rfl, rfl, rfl⟩
  simp only [RouteWatcher.addrWatchCallback]
  split <;> split_ifs
  · exact hd.trans (hrel _ _)
  · exact hd.trans (repin ..)
  · exact hd
  · exact hd.trans (hrel _ _)
  · exact hd

theorem callNode (rib : Rib W) (env : Env W) (kind : WatchKind) (n : WatchNode W)
    (old cur : Option (Ptr W)) (s : Log W) :
    SameTables s.1 (callNode rib env kind n old cur s).2.1 := by
  unfold RouteWatcher.callNode
  split
  · exact invoke ..
  · exact addrWatchCallback ..

end SameTables

theorem fireNodes_frame {β : Type} {f : RouteWatcher W → β} (rib : Rib W) (env : Env W)
    (kind : WatchKind) {eraseId : ℕ → RouteWatcher W → RouteWatcher W}
    (hf : ∀ w w', SameTables w w' → f w' = f w) (hfE : ∀ id w, f (eraseId id w) = f w)
    (fire : κ → Bool) (getCur : WatchNode W → Option (Ptr W)) (xs : List (κ × WatchNode W))
    (s : Log W) : f (fireNodes rib env kind eraseId fire getCur xs s).2.1 = f s.1 := by
  induction xs generalizing s with
  | nil => rfl
  | cons x xs ih =>
    obtain ⟨k, n⟩ := x
    rw [RouteWatcher.fireNodes]
    split_ifs
    · exact ih s
    · refine (ih _).trans ?_
      unfold RouteWatcher.fireNode
      split_ifs
      · rfl
      · have hcall := hf _ _ (SameTables.callNode rib env kind n n.lastKnown (getCur n) s)
        simp only
        split_ifs
        · rw [hfE]; exact (hf _ _ (SameTables.pushId _ _)).trans hcall
        · exact hcall
    · exact ih s

/-! ## The invariant -/

def allIds (w : RouteWatcher W) (held : List ℕ) : List ℕ :=
  w.availableIds ++ (held ++ (w.addrWatches.map Prod.fst ++ pendingIds w.queue))

structure SameIds (w w' : RouteWatcher W) : Prop where
  available : w'.availableIds = w.availableIds
  addrWatches : w'.addrWatches = w.addrWatches
  queue : w'.queue = w.queue
  nextId : w'.nextId = w.nextId
  nextState : w'.nextState = w.nextState

/-- **No id is in two places.** -/
structure IdsInv (w : RouteWatcher W) (held : List ℕ) (prox : List (ℕ × ℕ)) : Prop where
  nodup : (allIds w held).Nodup
  bound : ∀ id ∈ allIds w held, id < w.nextId
  addr : ∀ x ∈ w.addrWatches, x.2.addrId = x.1 ∧ x.2.state < w.nextState
  states : (w.addrWatches.map fun x => x.2.state).Nodup
  /-- the state of a proxy, if it is not released, is pinned to the proxy -/
  pinned : ∀ p ∈ prox ++ pendingProxies w.queue, p.2 < w.nextState ∧
    ∀ x ∈ w.addrWatches, x.2.state = p.2 → x.2.prefixId = p.1

section
variable {w w' : RouteWatcher W} {held held' : List ℕ} {prox prox' : List (ℕ × ℕ)} {id : ℕ}

theorem IdsInv.perm (h : IdsInv w held prox) (hp : held.Perm held') : IdsInv w held' prox := by
  have hall : (allIds w held').Perm (allIds w held) :=
    (List.Perm.append_right _ hp.symm).append_left _
  exact ⟨hall.nodup_iff.2 h.nodup, fun i hi => h.bound i (hall.mem_iff.1 hi), h.addr, h.states, h.pinned⟩

theorem IdsInv.subset (h : IdsInv w held prox) (hp : ∀ p ∈ prox', p ∈ prox) : IdsInv w held prox' := by
  refine ⟨h.nodup, h.bound, h.addr, h.states, fun p hp' => h.pinned p ?_⟩
  rcases List.mem_append.1 hp' with hm | hm
  · exact List.mem_append_left _ (hp p hm)
  · exact List.mem_append_right _ hm

theorem IdsInv.of_sameIds (h : IdsInv w held prox) (he : SameIds w w') : IdsInv w' held prox := by
  have hall : allIds w' held = allIds w held := by
    rw [allIds, allIds, he.available, he.addrWatches, he.queue]
  refine ⟨hall ▸ h.nodup, fun i hi => ?_, ?_, ?_, ?_⟩
  · rw [he.nextId]; exact h.bound i (hall ▸ hi)
  · rw [he.addrWatches, he.nextState]; exact h.addr
  · rw [he.addrWatches]; exact h.states
  · rw [he.addrWatches, he.queue, he.nextState]; exact h.pinned

theorem IdsInv.pushId (h : IdsInv w (id :: held) prox) : IdsInv (w.pushId id) held prox := by
  have hall : (allIds (w.pushId id) held).Perm (allIds w (id :: held)) := by
    simp only [allIds, RouteWatcher.pushId, List.cons_append]
    exact List.perm_middle.symm
  exact ⟨hall.nodup_iff.2 h.nodup, fun i hi => h.bound i (hall.mem_iff.1 hi), h.addr, h.states, h.pinned⟩

theorem allocateId_nil (h : w.availableIds = []) :
    w.allocateId = (w.nextId, { w with nextId := w.nextId + 1 }) := by
  rw [RouteWatcher.allocateId, h]

theorem allocateId_cons {ids : List ℕ} (h : w.availableIds = id :: ids) :
    w.allocateId = (id, { w with availableIds := ids }) := by rw [RouteWatcher.allocateId, h]

theorem allocateId_frame (w : RouteWatcher W) : w.allocateId.2.addrWatches = w.addrWatches ∧
    w.allocateId.2.queue = w.queue ∧ w.allocateId.2.nextState = w.nextState := by
  cases hs : w.availableIds with
  | nil => rw [allocateId_nil hs]; exact ⟨rfl, rfl, rfl⟩
  | cons id ids => rw [allocateId_cons hs]; exact ⟨rfl, rfl, rfl⟩

theorem IdsInv.allocateId (h : IdsInv w held prox) :
    IdsInv w.allocateId.2 (w.allocateId.1 :: held) prox := by
  cases hs : w.availableIds with
  | nil =>
    have hall : allIds { w with nextId := w.nextId + 1 } (w.nextId :: held) =
        w.nextId :: allIds w held := by simp [allIds, hs]
    rw [allocateId_nil hs]
    refine ⟨?_, fun i hi => ?_, h.addr, h.states, h.pinned⟩
    · rw [hall]
      exact List.nodup_cons.2 ⟨fun hm => lt_irrefl _ (h.bound _ hm), h.nodup⟩
    · rw [hall] at hi
      rcases List.mem_cons.1 hi with rfl | hi
      · exact Nat.lt_succ_self _
      · exact (h.bound i hi).trans (Nat.lt_succ_self _)
  | cons id ids =>
    have hall : (allIds { w with availableIds := ids } (id :: held)).Perm (allIds w held) := by
      simp only [allIds, hs, List.cons_append]; exact List.perm_middle
    rw [allocateId_cons hs]
    exact ⟨hall.nodup_iff.2 h.nodup, fun i hi => h.bound i (hall.mem_iff.1 hi), h.addr, h.states,
      h.pinned⟩

theorem pendingIds_concat (q : List (Task W)) (t : Task W) :
    pendingIds (q ++ [t]) = pendingIds q ++ (pendingId t).toList := by
  rw [pendingIds, pendingIds, List.filterMap_append]
  cases h : pendingId t <;> simp [h]

theorem pendingProxies_concat (q : List (Task W)) (t : Task W) :
    pendingProxies (q ++ [t]) = pendingProxies q ++ pendingProxies [t] := by
  rw [pendingProxies, List.filterMap_append]; rfl

theorem IdsInv.post {t : Task W} (h : IdsInv w ((pendingId t).toList ++ held) prox)
    (ht : ∀ p ∈ pendingProxies [t], p.2 < w.nextState ∧
      ∀ x ∈ w.addrWatches, x.2.state = p.2 → x.2.prefixId = p.1) :
    IdsInv (w.post t) held prox := by
  have hall : (allIds (w.post t) held).Perm (allIds w ((pendingId t).toList ++ held)) := by
    simp only [allIds, RouteWatcher.post, pendingIds_concat, List.append_assoc]
    refine List.Perm.append_left _ ?_
    have hcomm := @List.perm_append_comm ℕ (held ++ (w.addrWatches.map Prod.fst ++ pendingIds w.queue))
      (pendingId t).toList
    simpa only [List.append_assoc] using hcomm
  refine ⟨hall.nodup_iff.2 h.nodup, fun i hi => h.bound i (hall.mem_iff.1 hi), h.addr, h.states,
    fun p hp => ?_⟩
  simp only [RouteWatcher.post, pendingProxies_concat, ← List.append_assoc] at hp
  rcases List.mem_append.1 hp with hp | hp
  · exact h.pinned p hp
  · exact ht p hp

theorem IdsInv.post_none {t : Task W} (h : IdsInv w held prox) (ht : pendingId t = none) :
    IdsInv (w.post t) held prox := by
  refine IdsInv.post (by rw [ht]; exact h) fun p hp => ?_
  cases t <;> simp_all [pendingId, pendingProxies]

/-! ## Calls -/

theorem IdsInv.register (h : IdsInv w held prox) {t : ℕ → Task W}
    (ht : ∀ id, pendingId (t id) = some id) (hp : ∀ id, pendingProxies [t id] = []) :
    IdsInv (w.allocateId.2.post (t w.allocateId.1)) held prox := by
  refine IdsInv.post (by rw [ht]; exact h.allocateId) fun p hp' => ?_
  rw [hp] at hp'; cases hp'

theorem IdsInv.call (h : IdsInv w held prox) (rib : Rib W) (env : Env W) (c : Call W) :
    IdsInv (w.call rib env c) held prox := by
  cases c with
  | watchRoute pfx length fn ctx filter =>
    exact h.register (t := fun id => .addPrefix (Rib.keyOf pfx length) id (.user fn ctx) filter)
      (fun _ => rfl) fun _ => rfl
  | watchAddress addr fn ctx filter =>
    simp only [RouteWatcher.call]
    split_ifs
    · exact h
    · exact h.register (t := fun id => .addAddress addr id fn ctx filter) (fun _ => rfl) fun _ => rfl
  | watchProtocol sp fn ctx =>
    exact h.register (t := fun id => .addProtocol sp id fn ctx) (fun _ => rfl) fun _ => rfl
  | remove id => exact h.post_none rfl
  | rib op => exact h.post_none rfl

theorem addrWatches_call (rib : Rib W) (env : Env W) (w : RouteWatcher W) (c : Call W) :
    (w.call rib env c).addrWatches = w.addrWatches := by
  cases c with
  | watchRoute => exact (allocateId_frame w).1
  | watchAddress =>
    simp only [RouteWatcher.call]
    split_ifs
    · rfl
    · exact (allocateId_frame w).1
  | watchProtocol => exact (allocateId_frame w).1
  | remove => rfl
  | rib => rfl

theorem IdsInv.invoke (rib : Rib W) (env : Env W) (i : Invocation W) (log : List (Invocation W))
    (h : IdsInv w held prox) : IdsInv (invoke rib env i (w, log)).2.1 held prox := by
  simp only [RouteWatcher.invoke]
  induction (env.reply log.length i).2 generalizing w with
  | nil => exact h
  | cons c cs ih => exact ih (h.call rib env c)

theorem addrWatches_invoke (rib : Rib W) (env : Env W) (i : Invocation W) (s : Log W) :
    (invoke rib env i s).2.1.addrWatches = s.1.addrWatches := by
  simp only [RouteWatcher.invoke]
  generalize s.1 = w
  induction (env.reply s.2.length i).2 generalizing w with
  | nil => rfl
  | cons c cs ih => rw [List.foldl_cons, ih, addrWatches_call]

/-! ## Callbacks of address watches -/

theorem keys_writeState (w : RouteWatcher W) (state : ℕ) (f : AddrWatchState W → AddrWatchState W) :
    (w.writeState state f).addrWatches.map Prod.fst = w.addrWatches.map Prod.fst := by
  simp only [RouteWatcher.writeState, List.map_map]
  refine List.map_congr_left fun x _ => ?_
  simp only [Function.comp_apply]
  split_ifs <;> rfl

theorem states_writeState (w : RouteWatcher W) (state : ℕ) {f : AddrWatchState W → AddrWatchState W}
    (hf : ∀ a, (f a).state = a.state) :
    ((w.writeState state f).addrWatches.map fun x => x.2.state) =
      w.addrWatches.map fun x => x.2.state := by
  simp only [RouteWatcher.writeState, List.map_map]
  refine List.map_congr_left fun x _ => ?_
  simp only [Function.comp_apply]
  split_ifs
  · exact hf _
  · rfl

theorem IdsInv.writeState (h : IdsInv w held prox) {state : ℕ}
    {f : AddrWatchState W → AddrWatchState W}
    (hf : ∀ a, (f a).addrId = a.addrId ∧ (f a).state = a.state)
    (hp : (∀ a, (f a).prefixId = a.prefixId) ∨ ∀ p ∈ prox ++ pendingProxies w.queue, p.2 ≠ state) :
    IdsInv (w.writeState state f) held prox := by
  have hall : allIds (w.writeState state f) held = allIds w held := by
    rw [allIds, allIds, keys_writeState]; rfl
  have hmem : ∀ x ∈ (w.writeState state f).addrWatches, ∃ y ∈ w.addrWatches, x.1 = y.1 ∧
      x.2.addrId = y.2.addrId ∧ x.2.state = y.2.state ∧ (x.2.prefixId = y.2.prefixId ∨
        (y.2.state = state ∧ x.2 = f y.2)) := by
    intro x hx
    obtain ⟨y, hy, rfl⟩ := List.mem_map.1 hx
    refine ⟨y, hy, ?_⟩
    split_ifs with hs
    · exact ⟨rfl, (hf _).1, (hf _).2, Or.inr ⟨hs, rfl⟩⟩
    · exact ⟨rfl, rfl, rfl, Or.inl rfl⟩
  refine ⟨hall ▸ h.nodup, fun i hi => h.bound i (hall ▸ hi), fun x hx => ?_, ?_, fun p hp' => ?_⟩
  · obtain ⟨y, hy, h₁, h₂, h₃, -⟩ := hmem x hx
    rw [h₁, h₂, h₃]; exact h.addr y hy
  · rw [states_writeState w state fun a => (hf a).2]; exact h.states
  · refine ⟨(h.pinned p hp').1, fun x hx hxs => ?_⟩
    obtain ⟨y, hy, -, -, h₃, h₄⟩ := hmem x hx
    have hpin := (h.pinned p hp').2 y hy (h₃ ▸ hxs)
    rcases h₄ with h₄ | ⟨hs, h₄⟩
    · rw [h₄]; exact hpin
    · rcases hp with hp | hp
      · rw [h₄, hp]; exact hpin
      · exact absurd (hxs.symm.trans (h₃.trans hs)) (hp p hp')

theorem perm_eraseKey {β : Type} {m : List (ℕ × β)} (hnd : (m.map Prod.fst).Nodup) {k : ℕ}
    (hk : k ∈ m.map Prod.fst) : (m.map Prod.fst).Perm (k :: (eraseKey k m).map Prod.fst) := by
  have he : (eraseKey k m).map Prod.fst = (m.map Prod.fst).erase k := by
    rw [hnd.erase_eq_filter, eraseKey, List.filter_map]
    congr 1
    refine List.filter_congr fun x _ => ?_
    simp [bne, Bool.beq_eq_decide_eq]
  rw [he]
  exact List.perm_cons_erase hk

theorem nodup_addr (h : IdsInv w held prox) : (w.addrWatches.map Prod.fst).Nodup := by
  have := h.nodup
  simp only [allIds, List.nodup_append] at this
  exact this.2.1.2.1.1

theorem IdsInv.eraseAddr (h : IdsInv w held prox) (hid : id ∈ w.addrWatches.map Prod.fst) :
    IdsInv { w with addrWatches := eraseKey id w.addrWatches } (id :: held) prox := by
  have hperm := perm_eraseKey (nodup_addr h) hid
  have hall : (allIds { w with addrWatches := eraseKey id w.addrWatches } (id :: held)).Perm
      (allIds w held) := by
    simp only [allIds, List.cons_append]
    refine List.Perm.append_left _ (List.Perm.symm ?_)
    refine (List.Perm.append_left held (List.Perm.append_right _ hperm)).trans ?_
    simp
  have hsub : ∀ x ∈ eraseKey id w.addrWatches, x ∈ w.addrWatches := fun x hx => List.mem_of_mem_filter hx
  refine ⟨hall.nodup_iff.2 h.nodup, fun i hi => h.bound i (hall.mem_iff.1 hi),
    fun x hx => h.addr x (hsub x hx), ?_, fun p hp => ?_⟩
  · exact h.states.sublist (List.Sublist.map _ List.filter_sublist)
  · exact ⟨(h.pinned p hp).1, fun x hx => (h.pinned p hp).2 x (hsub x hx)⟩

theorem IdsInv.releaseAddr (h : IdsInv w held prox) {st : AddrWatchState W}
    (hid : st.addrId ∈ w.addrWatches.map Prod.fst) : IdsInv (releaseAddr st w) held prox :=
  (h.eraseAddr hid).pushId

theorem IdsInv.repin (h : IdsInv w held prox) (rib : Rib W) (env : Env W) {st : AddrWatchState W}
    (cur : Ptr W) (hlt : st.state < w.nextState)
    (hother : ∀ p ∈ prox ++ pendingProxies w.queue, p.2 ≠ st.state) :
    IdsInv (repin rib env st cur w) held prox := by
  obtain ⟨-, hq, hns⟩ := allocateId_frame w
  have hw := @IdsInv.writeState _ _ _ _ h.allocateId st.state
    (fun a => { a with prefixId := w.allocateId.1 }) (fun a => ⟨rfl, rfl⟩)
    (Or.inr (by rw [hq]; exact hother))
  refine IdsInv.post (t := .addPrefix (Rib.keyOf (read rib env cur).pfx (read rib env cur).length)
    w.allocateId.1 (.addrWatch st.state) {}) hw fun p hp => ?_
  simp only [pendingProxies, List.filterMap_cons, List.filterMap_nil, List.mem_singleton] at hp
  subst hp
  refine ⟨by rw [← hns] at hlt; exact hlt, fun x hx hxs => ?_⟩
  obtain ⟨y, -, rfl⟩ := List.mem_map.1 hx
  split_ifs at hxs ⊢ with hs
  · rfl
  · exact absurd hxs hs

theorem IdsInv.deliver (h : IdsInv w held prox) (rib : Rib W) (env : Env W) (st : AddrWatchState W)
    (cur : Option (Ptr W)) (log : List (Invocation W)) :
    IdsInv (deliver rib env st cur (w, log)).2.1 held prox := by
  unfold RouteWatcher.deliver
  split_ifs
  · exact h
  · refine IdsInv.invoke rib env _ log ?_
    exact h.writeState (fun a => ⟨rfl, rfl⟩) (Or.inl fun a => rfl)

theorem addrWatches_deliver (rib : Rib W) (env : Env W) (st : AddrWatchState W)
    (cur : Option (Ptr W)) (s : Log W) :
    (deliver rib env st cur s).2.1.addrWatches = s.1.addrWatches ∨
      (deliver rib env st cur s).2.1.addrWatches =
        (s.1.writeState st.state fun a => { a with lastUserRoute := cur }).addrWatches := by
  unfold RouteWatcher.deliver
  split_ifs
  · exact Or.inl rfl
  · exact Or.inr (addrWatches_invoke rib env _ _)

theorem pendingProxies_call (rib : Rib W) (env : Env W) (w : RouteWatcher W) (c : Call W) :
    pendingProxies (w.call rib env c).queue = pendingProxies w.queue := by
  obtain ⟨-, hq, -⟩ := allocateId_frame w
  cases c with
  | watchRoute =>
    simp only [RouteWatcher.call, RouteWatcher.watchRoute, RouteWatcher.post, pendingProxies_concat, hq]
    exact List.append_nil _
  | watchAddress =>
    simp only [RouteWatcher.call]
    split_ifs
    · rfl
    · simp only [RouteWatcher.post, pendingProxies_concat, hq]
      exact List.append_nil _
  | watchProtocol =>
    simp only [RouteWatcher.call, RouteWatcher.post, pendingProxies_concat, hq]
    exact List.append_nil _
  | remove => exact (pendingProxies_concat _ _).trans (List.append_nil _)
  | rib => exact (pendingProxies_concat _ _).trans (List.append_nil _)

theorem pendingProxies_invoke (rib : Rib W) (env : Env W) (i : Invocation W) (s : Log W) :
    pendingProxies (invoke rib env i s).2.1.queue = pendingProxies s.1.queue := by
  simp only [RouteWatcher.invoke]
  generalize s.1 = w
  induction (env.reply s.2.length i).2 generalizing w with
  | nil => rfl
  | cons c cs ih => rw [List.foldl_cons, ih, pendingProxies_call]

theorem pendingProxies_deliver (rib : Rib W) (env : Env W) (st : AddrWatchState W)
    (cur : Option (Ptr W)) (s : Log W) :
    pendingProxies (deliver rib env st cur s).2.1.queue = pendingProxies s.1.queue := by
  unfold RouteWatcher.deliver
  split_ifs
  · rfl
  · rw [pendingProxies_invoke]; rfl

theorem exists_stateAt {state : ℕ} (env : Env W) (h : StateAlive w state) :
    ∃ x ∈ w.addrWatches, x.2.state = state ∧ w.stateAt env state = x.2 := by
  cases hf : w.addrWatches.find? fun x => x.2.state = state with
  | none =>
    obtain ⟨x, hx, hs⟩ := h
    exact absurd hs (by simpa using List.find?_eq_none.1 hf x hx)
  | some x =>
    have hs : x.2.state = state := by simpa using List.find?_some hf
    refine ⟨x, List.mem_of_find?_eq_some hf, hs, ?_⟩
    rw [stateAt, hf, ← hs]; rfl

theorem mem_writeState {state : ℕ} {f : AddrWatchState W → AddrWatchState W}
    {y : ℕ × AddrWatchState W} (hy : y ∈ (w.writeState state f).addrWatches) :
    ∃ x ∈ w.addrWatches, y = x ∨ (x.2.state = state ∧ y = (x.1, f x.2)) := by
  obtain ⟨x, hx, rfl⟩ := List.mem_map.1 hy
  refine ⟨x, hx, ?_⟩
  split_ifs with hs
  · exact Or.inr ⟨hs, rfl⟩
  · exact Or.inl rfl

theorem mem_writeState_of_ne {state : ℕ} {f : AddrWatchState W → AddrWatchState W}
    {x : ℕ × AddrWatchState W} (hx : x ∈ w.addrWatches) (hne : x.2.state ≠ state) :
    x ∈ (w.writeState state f).addrWatches := List.mem_map.2 ⟨x, hx, if_neg hne⟩

theorem mem_deliver {rib : Rib W} {env : Env W} {st : AddrWatchState W} {cur : Option (Ptr W)}
    {s : Log W} {y : ℕ × AddrWatchState W} (hy : y ∈ (deliver rib env st cur s).2.1.addrWatches) :
    ∃ x ∈ s.1.addrWatches, y.1 = x.1 ∧ y.2.state = x.2.state ∧ y.2.prefixId = x.2.prefixId := by
  rcases addrWatches_deliver rib env st cur s with he | he
  · rw [he] at hy; exact ⟨y, hy, rfl, rfl, rfl⟩
  · rw [he] at hy
    obtain ⟨x, hx, rfl | ⟨-, rfl⟩⟩ := mem_writeState hy
    · exact ⟨y, hx, rfl, rfl, rfl⟩
    · exact ⟨x, hx, rfl, rfl, rfl⟩

theorem mem_deliver_of_ne {rib : Rib W} {env : Env W} {st : AddrWatchState W}
    {cur : Option (Ptr W)} {s : Log W} {x : ℕ × AddrWatchState W} (hx : x ∈ s.1.addrWatches)
    (hne : x.2.state ≠ st.state) : x ∈ (deliver rib env st cur s).2.1.addrWatches := by
  rcases addrWatches_deliver rib env st cur s with he | he
  · rw [he]; exact hx
  · rw [he]; exact mem_writeState_of_ne hx hne

theorem keys_deliver (rib : Rib W) (env : Env W) (st : AddrWatchState W) (cur : Option (Ptr W))
    (s : Log W) : (deliver rib env st cur s).2.1.addrWatches.map Prod.fst =
      s.1.addrWatches.map Prod.fst := by
  rcases addrWatches_deliver rib env st cur s with he | he
  · rw [he]
  · rw [he, keys_writeState]

theorem addrWatches_repin (rib : Rib W) (env : Env W) (st : AddrWatchState W) (cur : Ptr W)
    (w : RouteWatcher W) : (repin rib env st cur w).addrWatches =
      (w.writeState st.state fun a => { a with prefixId := w.allocateId.1 }).addrWatches := by
  simp only [RouteWatcher.repin, RouteWatcher.watchRoute, RouteWatcher.writeState, RouteWatcher.post,
    (allocateId_frame w).1]

/-- The address watch whose proxy has the id `pid` is called: it is re-pinned, it is
    released, or it stays pinned to `pid`.  The other watches stay as they are. -/
theorem IdsInv.addrWatchCallback (h : IdsInv w held prox) (rib : Rib W) (env : Env W)
    {state pid : ℕ} (cur : Option (Ptr W)) (log : List (Invocation W)) (ha : StateAlive w state)
    (hpin : ∀ x ∈ w.addrWatches, x.2.state = state → x.2.prefixId = pid)
    (hother : ∀ p ∈ prox ++ pendingProxies w.queue, p.1 ≠ pid) :
    IdsInv (addrWatchCallback rib env state cur (w, log)).2.1 held prox ∧
      ((addrWatchCallback rib env state cur (w, log)).1 = false →
        ∀ x ∈ (addrWatchCallback rib env state cur (w, log)).2.1.addrWatches,
          x.2.state = state → x.2.prefixId = pid) ∧
      ∀ x ∈ w.addrWatches, x.2.state ≠ state →
        x ∈ (addrWatchCallback rib env state cur (w, log)).2.1.addrWatches := by
  obtain ⟨a, ham, has, hst⟩ := exists_stateAt env ha
  -- no other proxy points to this state
  have hne : ∀ p ∈ prox ++ pendingProxies w.queue, p.2 ≠ state := by
    intro p hp hps
    have hpid := (h.pinned p hp).2 a ham (has.trans hps.symm)
    exact hother p hp (hpid.symm.trans (hpin a ham has))
  simp only [RouteWatcher.addrWatchCallback]
  generalize hst' : w.stateAt env state = st
  have hid : st.addrId = a.1 ∧ st.state = state := by
    rw [← hst', hst]; exact ⟨(h.addr a ham).1, has⟩
  generalize resolve rib env st cur = c
  generalize hr : RouteWatcher.deliver rib env st c (w, log) = r
  have hinv : IdsInv r.2.1 held prox := hr ▸ h.deliver rib env st c log
  have hq : pendingProxies r.2.1.queue = pendingProxies w.queue := hr ▸ pendingProxies_deliver ..
  have hns : r.2.1.nextState = w.nextState := hr ▸ (SameTables.deliver ..).nextState
  have hkeep : ∀ x ∈ w.addrWatches, x.2.state ≠ state → x ∈ r.2.1.addrWatches := by
    intro x hx hxs
    rw [← hr]; exact mem_deliver_of_ne hx (by rw [hid.2]; exact hxs)
  have hpin' : ∀ x ∈ r.2.1.addrWatches, x.2.state = state → x.2.prefixId = pid := by
    intro x hx hxs
    obtain ⟨y, hy, -, hys, hyp⟩ := mem_deliver (hr ▸ hx)
    rw [hyp]; exact hpin y hy (hys ▸ hxs)
  have hrel : IdsInv (RouteWatcher.releaseAddr st r.2.1) held prox ∧
      ∀ x ∈ w.addrWatches, x.2.state ≠ state →
        x ∈ (RouteWatcher.releaseAddr st r.2.1).addrWatches := by
    refine ⟨hinv.releaseAddr ?_, fun x hx hxs => ?_⟩
    · rw [← hr, keys_deliver, hid.1]; exact List.mem_map_of_mem ham
    · refine List.mem_filter.2 ⟨hkeep x hx hxs, decide_eq_true fun hxid => hxs ?_⟩
      have hxa : x = a := List.inj_on_of_nodup_map (nodup_addr h) hx ham (hxid.trans hid.1)
      rw [hxa]; exact has
  have hrep : ∀ c', IdsInv (RouteWatcher.repin rib env st c' r.2.1) held prox ∧
      ∀ x ∈ w.addrWatches, x.2.state ≠ state →
        x ∈ (RouteWatcher.repin rib env st c' r.2.1).addrWatches := by
    intro c'
    refine ⟨hinv.repin rib env c' ?_ ?_, fun x hx hxs => ?_⟩
    · rw [hid.2, hns, ← has]; exact (h.addr a ham).2
    · rw [hq, hid.2]; exact hne
    · rw [addrWatches_repin]
      exact mem_writeState_of_ne (hkeep x hx hxs) (by rw [hid.2]; exact hxs)
  cases c with
  | none =>
    simp only
    split_ifs
    · exact ⟨hrel.1, by simp, hrel.2⟩
    · exact ⟨hinv, fun _ => hpin', hkeep⟩
  | some c' =>
    simp only
    split_ifs
    · exact ⟨hrel.1, by simp, hrel.2⟩
    · exact ⟨(hrep c').1, by simp, (hrep c').2⟩
    · exact ⟨hinv, fun _ => hpin', hkeep⟩

/-- A node is called.  If it answers `false`, it stays the proxy of its state.  The
    address watches of other states stay as they are. -/
theorem IdsInv.callNode {n : WatchNode W} (h : IdsInv w held ((proxyOf n).toList ++ prox))
    (rib : Rib W) (env : Env W) (kind : WatchKind) (old cur : Option (Ptr W))
    (log : List (Invocation W)) (ha : ∀ p ∈ proxyOf n, StateAlive w p.2)
    (hother : ∀ p ∈ prox ++ pendingProxies w.queue, p.1 ≠ n.id) :
    IdsInv (callNode rib env kind n old cur (w, log)).2.1 held prox ∧
      ((callNode rib env kind n old cur (w, log)).1 = false →
        IdsInv (callNode rib env kind n old cur (w, log)).2.1 held ((proxyOf n).toList ++ prox)) ∧
      ∀ x ∈ w.addrWatches, (∀ p ∈ proxyOf n, x.2.state ≠ p.2) →
        x ∈ (callNode rib env kind n old cur (w, log)).2.1.addrWatches := by
  have h' : IdsInv w held prox := h.subset fun p hp => List.mem_append_right _ hp
  cases hn : n.fn with
  | user fn ctx =>
    have hp : proxyOf n = none := by rw [proxyOf, hn]
    simp only [RouteWatcher.callNode, hn]
    have hinv := h'.invoke rib env ⟨kind, fn, ctx, n.id, old, cur⟩ log
    refine ⟨hinv, fun _ => by rw [hp]; exact hinv, fun x hx _ => ?_⟩
    rw [addrWatches_invoke]; exact hx
  | addrWatch state =>
    have hp : proxyOf n = some (n.id, state) := by rw [proxyOf, hn]
    have hpin := h.pinned (n.id, state) (by rw [hp]; simp)
    simp only [RouteWatcher.callNode, hn]
    obtain ⟨hinv, hfalse, hkeep⟩ := h'.addrWatchCallback rib env cur log
      (ha _ hp) hpin.2 hother
    refine ⟨hinv, fun hr => ?_, fun x hx hs => hkeep x hx (hs _ hp)⟩
    refine ⟨hinv.nodup, hinv.bound, hinv.addr, hinv.states, fun p hmem => ?_⟩
    rw [hp, Option.toList_some, List.append_assoc, List.singleton_append, List.mem_cons] at hmem
    rcases hmem with rfl | hmem
    · have hns := (SameTables.addrWatchCallback rib env state cur (w, log)).nextState
      exact ⟨by rw [hns]; exact hpin.1, hfalse hr⟩
    · exact hinv.pinned p hmem

end

end RouteWatcher

end VirtualRouter
