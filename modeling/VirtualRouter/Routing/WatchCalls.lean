/-
  What an announcement calls.

  A call of the RIB edits the routes of one prefix in place and announces the
  bucket (`Edited`).  The watches that are fired get pointers into it; read after
  the edit, these show the best routes (`bestOf`).  `callsOf_fireNodes` says which
  of the user's functions the loop over the nodes calls.
-/
import VirtualRouter.Routing.WatchIds

namespace VirtualRouter

section
variable {W : ℕ}

/-! ## Equal routes -/

theorem routesEqual_iff {a b : Option (RibEntry W)} :
    routesEqual a b = true ↔ a.map RibEntry.attrs = b.map RibEntry.attrs := by
  cases a with
  | none => cases b <;> simp [routesEqual]
  | some a => cases b <;> simp [routesEqual]

theorem routesEqual_refl (a : Option (RibEntry W)) : routesEqual a a = true := routesEqual_iff.2 rfl

theorem routesEqual_congr {a b : Option (RibEntry W)} (h : routesEqual a b = true)
    (c : Option (RibEntry W)) : routesEqual a c = routesEqual b c := by
  rw [Bool.eq_iff_iff, routesEqual_iff, routesEqual_iff, routesEqual_iff.1 h]

theorem routesEqual_none {a : Option (RibEntry W)} : routesEqual a none = a.isNone := by
  cases a <;> rfl

/-! ## The bucket that is announced -/

/-- The best route of a prefix, of those that pass `p`. -/
def bestOf (rib : Rib W) (k : PrefixKey W) (p : RibEntry W → Bool) : Option (RibEntry W) :=
  (rib.table k).bind fun b => (bestSlot p b.routes).map Prod.snd

/-- `b` is the bucket of `k` after an edit. -/
structure Edited (rib rib' : Rib W) (k : PrefixKey W) (b : RibBucket W) : Prop where
  table : rib'.table k = if b.routes = [] then none else some b
  best : b.bestEntry = (bestSlot (fun _ => true) b.routes).map fun x => (b.block, x.1)
  prev : b.prevBest = (rib.table k).bind (·.bestEntry)

theorem bestEntry_pushBack (b : RibBucket W) (e : RibEntry W) (block : ℕ) :
    (b.pushBack e block).bestEntry = b.bestEntry := by
  unfold RibBucket.pushBack; split_ifs <;> rfl

theorem addRoute_changed {b : RibBucket W} {e : RibEntry W} {block copy : ℕ}
    (h : (b.addRoute e block copy).2 = true) :
    (b.addRoute e block copy).1.routes ≠ [] ∧
      (b.addRoute e block copy).1.prevBest = b.bestEntry ∧
      (b.addRoute e block copy).1.bestEntry =
        (bestSlot (fun _ => true) (b.addRoute e block copy).1.routes).map
          fun x => ((b.addRoute e block copy).1.block, x.1) := by
  rcases Rib.addRoute_cases b e block copy with ⟨i, r, -, -, -, ha⟩ | ⟨i, r, hi, -, -, ha⟩ | ⟨-, ha⟩
  · rw [ha] at h; cases h
  · rw [ha]
    refine ⟨?_, rfl, rfl⟩
    simpa [RibBucket.selectBest] using List.ne_nil_of_mem (List.mem_of_getElem? hi)
  · rw [ha]
    refine ⟨?_, bestEntry_pushBack b e block, rfl⟩
    simp [RibBucket.selectBest, Rib.routes_pushBack]

end

namespace RibSystem
variable {W : ℕ} {rib : Rib W} {op : Rib.Op W} {k : PrefixKey W} {b : RibBucket W}

theorem edited_announced (hk : opKey op = some k) (hb : announced rib op = some b) :
    Edited rib (rib.step op) k b := by
  cases op with
  | clear => cases hk
  | install e =>
    cases hk
    simp only [announced, Rib.installRoute] at hb
    cases ht : rib.table (Rib.keyOf e.pfx e.length) with
    | none =>
      simp only [ht] at hb
      have hadd : (({} : RibBucket W).addRoute e rib.next (rib.next + 1)).2 = true := rfl
      obtain ⟨hne, hprev, hbest⟩ := addRoute_changed hadd
      cases hb
      refine ⟨?_, hbest, by rw [hprev, ht]; rfl⟩
      rw [if_neg hne]
      simp [Rib.step, Rib.installRoute, ht]
    | some b₀ =>
      simp only [ht] at hb
      split_ifs at hb with hadd
      obtain ⟨hne, hprev, hbest⟩ := addRoute_changed hadd
      cases hb
      refine ⟨?_, hbest, by rw [hprev, ht]; rfl⟩
      rw [if_neg hne]
      simp [Rib.step, Rib.installRoute, ht]
  | withdraw pfx length src pid =>
    cases hk
    simp only [announced, Rib.withdrawRoute] at hb
    cases ht : rib.table (Rib.keyOf pfx length) with
    | none => simp only [ht] at hb; cases hb
    | some b₀ =>
      have hb' : b = b₀.removeRoute src pid rib.next := by
        simp only [ht] at hb
        split_ifs at hb <;> exact (Option.some.inj hb).symm
      subst hb'
      refine ⟨?_, rfl, by rw [ht]; rfl⟩
      simp only [Rib.step, Rib.withdrawRoute, ht, ← Rib.empty_removeRoute]
      split_ifs <;> simp

theorem exec_rib {s : RibSystem W} {ts : List (Task W)} (hq : s.watcher.queue = .rib op :: ts)
    (env : Env W) : s.exec (.exec env) =
      (⟨s.rib.step op, (execOp s.rib env { s.watcher with queue := ts } op).2.1⟩,
        (execOp s.rib env { s.watcher with queue := ts } op).2.2) := by
  simp only [exec, hq]; rfl

theorem rib_step (s : RibSystem W) (e : Event W) :
    (s.step e).rib = s.rib ∨ ∃ op, (s.step e).rib = s.rib.step op := by
  cases e with
  | call => exact Or.inl rfl
  | exec env =>
    simp only [step, exec]
    cases s.watcher.queue with
    | nil => exact Or.inl rfl
    | cons t ts =>
      cases t with
      | rib op => exact Or.inr ⟨op, rfl⟩
      | _ => exact Or.inl rfl

theorem ribInv_step (s : RibSystem W) (e : Event W) (h : Rib.Inv s.rib) : Rib.Inv (s.step e).rib := by
  rcases rib_step s e with hr | ⟨op, hr⟩
  · rw [hr]; exact h
  · rw [hr]; exact Rib.inv_step h op

theorem execOp_unannounced (hk : opKey op = some k) (hb : announced rib op = none) (env : Env W)
    (w : RouteWatcher W) : (execOp rib env w op).2 = (w, []) := by
  simp only [execOp, hk, hb]

theorem execOp_announced (hk : opKey op = some k) (hb : announced rib op = some b) (env : Env W)
    (w : RouteWatcher W) : (execOp rib env w op).2 =
      RouteWatcher.announceRouteChange (rib.step op) env k b (w, []) := by
  simp only [execOp, hk, hb]

theorem calls_other {s : RibSystem W} {e : Event W}
    (h : ∀ env op ts, e = .exec env → s.watcher.queue = .rib op :: ts → False) : s.calls e = [] := by
  cases e with
  | call c env => rfl
  | exec env =>
    simp only [calls, exec]
    cases hq : s.watcher.queue with
    | nil => rfl
    | cons t ts =>
      cases t with
      | rib op => exact (h env op ts rfl hq).elim
      | _ => rfl

theorem table_unannounced (hk : opKey op = some k) (hb : announced rib op = none) :
    (rib.step op).table k = rib.table k := by
  cases op with
  | clear => cases hk
  | install e =>
    cases hk
    simp only [announced, Rib.installRoute] at hb
    cases ht : rib.table (Rib.keyOf e.pfx e.length) with
    | none => simp only [ht] at hb; cases hb
    | some b₀ =>
      simp only [ht] at hb
      split_ifs at hb with hadd
      have hsame : (b₀.addRoute e rib.next (rib.next + 1)).1 = b₀ := by
        rcases Rib.addRoute_cases b₀ e rib.next (rib.next + 1) with
          ⟨i, r, -, -, -, ha⟩ | ⟨i, r, -, -, -, ha⟩ | ⟨-, ha⟩
        · rw [ha]
        · rw [ha] at hadd; exact absurd rfl hadd
        · rw [ha] at hadd; exact absurd rfl hadd
      simp [Rib.step, Rib.installRoute, ht, hsame]
  | withdraw pfx length src pid =>
    cases hk
    simp only [announced, Rib.withdrawRoute] at hb
    cases ht : rib.table (Rib.keyOf pfx length) with
    | none => simp [Rib.step, Rib.withdrawRoute, ht]
    | some b₀ =>
      simp only [ht] at hb
      split_ifs at hb

end RibSystem

section
variable {W : ℕ} {rib rib' : Rib W} {k : PrefixKey W} {b : RibBucket W}

theorem Edited.bestOf_eq (h : Edited rib rib' k b) (p : RibEntry W → Bool) :
    bestOf rib' k p = (bestSlot p b.routes).map Prod.snd := by
  rw [bestOf, h.table]
  split_ifs with hr
  · rw [hr]; rfl
  · rfl

theorem Edited.read_slot (h : Edited rib rib' k b) (env : Env W) (p : RibEntry W → Bool) :
    ((bestSlot p b.routes).map fun x => read rib' env (.route k (b.block, x.1))) = bestOf rib' k p := by
  rw [h.bestOf_eq]
  cases hx : bestSlot p b.routes with
  | none => rfl
  | some x =>
    have hslot := (isBest_of_bestSlot hx).slot
    have hne : b.routes ≠ [] := List.ne_nil_of_mem (List.mem_of_getElem? hslot)
    simp [read, h.table, hne, hslot]

theorem Edited.read_getBestRoute (h : Edited rib rib' k b) (env : Env W) (p : RibEntry W → Bool) :
    (getBestRoute k b p).map (read rib' env) = bestOf rib' k p := by
  rw [getBestRoute, Option.map_map]
  exact h.read_slot env p

theorem Edited.read_bestEntry (h : Edited rib rib' k b) (env : Env W) :
    (b.bestEntry.map fun p => read rib' env (.route k p)) =
      bestOf rib' k fun _ => true := by
  rw [h.best, Option.map_map]
  exact h.read_slot env _

theorem Edited.read_computeBest (h : Edited rib rib' k b) (env : Env W) (f : WatchFilter) :
    (computeBestForPrefix k b f).map (read rib' env) = bestOf rib' k f.pass := by
  unfold computeBestForPrefix
  split_ifs with hf
  · exact h.read_getBestRoute env f.pass
  · have hpass : (f.pass : RibEntry W → Bool) = fun _ => true := by
      push Not at hf
      obtain ⟨hs, hp⟩ := hf
      funext r
      simp only [Bool.not_eq_true, Option.isSome_eq_false_iff, Option.isNone_iff_eq_none] at hs hp
      simp [WatchFilter.pass, hs, hp]
    rw [hpass, ← h.read_bestEntry env, Option.map_map]; rfl

end

namespace RouteWatcher
variable {W : ℕ} {κ : Type} (rib : Rib W) (env : Env W) {kind kind' : WatchKind}

/-! ## The calls of a loop -/

def callsOf (kind : WatchKind) (l : List (Invocation W)) : List (Invocation W) :=
  l.filter fun i => i.kind = kind

theorem callsOf_append (l l' : List (Invocation W)) :
    callsOf kind (l ++ l') = callsOf kind l ++ callsOf kind l' := List.filter_append ..

theorem callsOf_deliver (h : kind ≠ .address) (st : AddrWatchState W) (cur : Option (Ptr W))
    (s : Log W) : callsOf kind (deliver rib env st cur s).2.2 = callsOf kind s.2 := by
  unfold deliver
  split_ifs
  · rfl
  · rw [invoke, callsOf_append]
    simp [callsOf, h.symm]

theorem callsOf_addrWatchCallback (h : kind ≠ .address) (state : ℕ) (cur : Option (Ptr W))
    (s : Log W) : callsOf kind (addrWatchCallback rib env state cur s).2.2 = callsOf kind s.2 := by
  have hd := callsOf_deliver rib env h (s.1.stateAt env state)
    (resolve rib env (s.1.stateAt env state) cur) s
  simp only [addrWatchCallback]
  split <;> split_ifs <;> exact hd

def nodeCall (kind : WatchKind) (cur : Option (Ptr W)) (n : WatchNode W) : Option (Invocation W) :=
  match n.fn with
  | .user fn ctx => if n.canceled = false ∧ Differs rib env n cur then
      some ⟨kind, fn, ctx, n.id, n.lastKnown, cur⟩ else none
  | .addrWatch _ => none

theorem nodeCall_canceled {n : WatchNode W} (h : n.canceled = true) (cur : Option (Ptr W)) :
    nodeCall rib env kind cur n = none := by
  unfold nodeCall
  split
  · rw [if_neg (by simp [h])]
  · rfl

theorem callsOf_fireNode (h : kind ≠ .address) (eraseId : ℕ → RouteWatcher W → RouteWatcher W)
    (cur : Option (Ptr W)) {n : WatchNode W} (hn : n.canceled = false) (s : Log W) :
    callsOf kind (fireNode rib env kind' eraseId cur n s).2.2 =
      callsOf kind s.2 ++ callsOf kind (nodeCall rib env kind' cur n).toList := by
  unfold fireNode
  split_ifs with he
  · have hnone : nodeCall rib env kind' cur n = none := by
      unfold nodeCall
      split
      · rw [if_neg (by simp [Differs, he])]
      · rfl
    rw [hnone]; exact (List.append_nil _).symm
  · have hcall : callsOf kind (callNode rib env kind' n n.lastKnown cur s).2.2 =
        callsOf kind s.2 ++ callsOf kind (nodeCall rib env kind' cur n).toList := by
      unfold callNode nodeCall
      cases n.fn with
      | user fn ctx =>
        simp only
        rw [if_pos ⟨hn, by simpa [Differs] using he⟩, invoke, callsOf_append]; rfl
      | addrWatch state =>
        simp only
        rw [callsOf_addrWatchCallback rib env h]; exact (List.append_nil _).symm
    simp only
    split_ifs
    · exact hcall
    · exact hcall

theorem callsOf_fireNodes (h : kind ≠ .address) (eraseId : ℕ → RouteWatcher W → RouteWatcher W)
    (fire : κ → Bool) (getCur : WatchNode W → Option (Ptr W)) (xs : List (κ × WatchNode W))
    (s : Log W) :
    callsOf kind (fireNodes rib env kind' eraseId fire getCur xs s).2.2 = callsOf kind s.2 ++
      callsOf kind (xs.filterMap fun x =>
        if fire x.1 then nodeCall rib env kind' (getCur x.2) x.2 else none) := by
  induction xs generalizing s with
  | nil => exact (List.append_nil _).symm
  | cons x xs ih =>
    obtain ⟨k, n⟩ := x
    rw [fireNodes, List.filterMap_cons]
    split_ifs with hk hc
    · simp only [nodeCall_canceled rib env hc]
      exact ih s
    · simp only
      rw [ih, callsOf_fireNode rib env h eraseId (getCur n) (by simpa using hc), List.append_assoc]
      cases nodeCall rib env kind' (getCur n) n with
      | none => rfl
      | some i => rw [← callsOf_append]; rfl
    · exact ih s

theorem nodeCall_kind {cur : Option (Ptr W)} {n : WatchNode W} {i : Invocation W}
    (h : nodeCall rib env kind cur n = some i) : i.kind = kind := by
  unfold nodeCall at h
  split at h
  · split_ifs at h; cases h; rfl
  · cases h

theorem callsOf_fireNodes_self (h : kind ≠ .address) (eraseId : ℕ → RouteWatcher W → RouteWatcher W)
    (fire : κ → Bool) (getCur : WatchNode W → Option (Ptr W)) (xs : List (κ × WatchNode W))
    (s : Log W) :
    callsOf kind (fireNodes rib env kind eraseId fire getCur xs s).2.2 = callsOf kind s.2 ++
      xs.filterMap fun x => if fire x.1 then nodeCall rib env kind (getCur x.2) x.2 else none := by
  rw [callsOf_fireNodes rib env h]
  congr 1
  refine List.filter_eq_self.2 fun i hi => ?_
  obtain ⟨x, -, hx⟩ := List.mem_filterMap.1 hi
  split_ifs at hx
  simp [nodeCall_kind rib env hx]

theorem callsOf_fireNodes_other (h : kind ≠ .address) (hk : kind' ≠ kind)
    (eraseId : ℕ → RouteWatcher W → RouteWatcher W) (fire : κ → Bool)
    (getCur : WatchNode W → Option (Ptr W)) (xs : List (κ × WatchNode W)) (s : Log W) :
    callsOf kind (fireNodes rib env kind' eraseId fire getCur xs s).2.2 = callsOf kind s.2 := by
  have hnil : callsOf kind (xs.filterMap fun x =>
      if fire x.1 then nodeCall rib env kind' (getCur x.2) x.2 else none) = [] := by
    refine List.filter_eq_nil_iff.2 fun i hi => ?_
    obtain ⟨x, -, hx⟩ := List.mem_filterMap.1 hi
    split_ifs at hx
    simp [nodeCall_kind rib env hx, hk]
  rw [callsOf_fireNodes rib env h, hnil, List.append_nil]

end RouteWatcher

end VirtualRouter
