/-
  Address watches: when the last route of the prefix that an address watch is
  pinned to is withdrawn, the watch is told the longest match that is left and is
  pinned to its prefix, or is released if there is none.

  The user's function is reached through a node among the prefix watches, the
  proxy, which is fired like any other: it is called only if it remembers a route,
  and then calls the function only if the route differs from the one delivered
  last.  A proxy that has just been registered remembers nothing.  `AddrTracked`
  is the condition under which the call is made.

  `Later` says what cannot get lost while the loops go on: posted tasks, free ids
  and calls made.
-/
import VirtualRouter.Routing.WatchCalls
import VirtualRouter.Routing.WatchIdsRun

namespace VirtualRouter

open PrefixMap

/-! ## The longest match that passes a filter -/

namespace Rib
variable {W : ℕ}

/-- The forwarding table, of the routes that pass a filter. -/
def passing (rib : Rib W) (f : WatchFilter) : PMap (BitVec W) (PrefixKey W) := fun k =>
  (rib.fib k).filter fun k' => (rib.table k').any fun b => b.fibEntry.any fun x => f.pass x.2

/-- The longest match of an address that passes a filter: the prefix, and the
    published copy with its address. -/
def passingMatch (rib : Rib W) (f : WatchFilter) (a : BitVec W) :
    Option (PrefixKey W × ℕ × RibEntry W) :=
  (lpm (rib.passing f) a).bind fun k => (rib.table k).bind fun b => b.fibEntry.map fun x => (k, x)

def LongestPasses (rib : Rib W) (f : WatchFilter) (a : BitVec W) : Prop :=
  (rib.passingMatch f a).isSome → (rib.lookup a).any (fun x => f.pass x.2.2) = true

instance (rib : Rib W) (f : WatchFilter) (a : BitVec W) : Decidable (LongestPasses rib f a) := by
  unfold LongestPasses; infer_instance

theorem passingMatch_of_longest {rib : Rib W} {f : WatchFilter} {a : BitVec W}
    (h : LongestPasses rib f a) :
    rib.passingMatch f a = (rib.lookup a).filter fun x => f.pass x.2.2 := by
  cases hany : (rib.lookup a).any fun x => f.pass x.2.2 with
  | false =>
    have hnone : rib.passingMatch f a = none := by
      cases hm : rib.passingMatch f a with
      | none => rfl
      | some m =>
        have hp := h (by rw [hm]; rfl)
        rw [hany] at hp; cases hp
    rw [hnone, eq_comm, Option.filter_eq_none_iff]
    intro x hx
    simpa [hx] using hany
  | true =>
    cases hx : rib.lookup a with
    | none => rw [hx] at hany; cases hany
    | some x =>
      have hp : f.pass x.2.2 = true := by rw [hx] at hany; exact hany
      obtain ⟨k, hk, hkx⟩ := Option.bind_eq_some_iff.1 hx
      obtain ⟨b, hb, hbx⟩ := Option.bind_eq_some_iff.1 hkx
      obtain ⟨e, he, rfl⟩ := Option.map_eq_some_iff.1 hbx
      obtain ⟨l, hl, hfib, hmax⟩ := longest_eq_some.1 hk
      -- the longest match passes, so it is the longest of those that pass
      have hpass : lpm (rib.passing f) a = some k := by
        refine longest_eq_some.2 ⟨l, hl, ?_, fun l' h₁ h₂ => ?_⟩
        · simp only [passing, hfib, hb, he, Option.filter_some, Option.any_some]
          rw [if_pos hp]
        · simp only [passing, hmax l' h₁ h₂]; rfl
      rw [passingMatch, hpass, Option.filter_some, if_pos hp, Option.bind_some, hb,
        Option.bind_some, he]; rfl

/-- The routes of a bucket are routes of its prefix. -/
def Keyed (rib : Rib W) : Prop :=
  ∀ k b, rib.table k = some b → ∀ r ∈ b.routes, keyOf r.pfx r.length = k

theorem mem_routes_addRoute {b : RibBucket W} {e r : RibEntry W} {block copy : ℕ}
    (h : r ∈ (b.addRoute e block copy).1.routes) : r ∈ b.routes ∨ r = e := by
  rcases addRoute_cases b e block copy with ⟨i, r', -, -, -, ha⟩ | ⟨i, r', -, -, -, ha⟩ | ⟨-, ha⟩
  · rw [ha] at h; exact Or.inl h
  · rw [ha] at h; exact List.mem_or_eq_of_mem_set h
  · rw [ha] at h
    simp only [RibBucket.selectBest, routes_pushBack] at h
    simpa using h

theorem keyed_step {rib : Rib W} (h : Keyed rib) (op : Op W) : Keyed (rib.step op) := by
  cases op with
  | install e =>
    intro k b hk r hr
    simp only [step, installRoute] at hk
    cases ht : rib.table (keyOf e.pfx e.length) with
    | none =>
      simp only [ht, Function.update_apply] at hk
      split_ifs at hk with hke
      · rw [← Option.some.inj hk] at hr
        rcases mem_routes_addRoute hr with hr | rfl
        · cases hr
        · exact hke.symm
      · exact h k b hk r hr
    | some b₀ =>
      simp only [ht, Function.update_apply] at hk
      split_ifs at hk with hke
      · rw [← Option.some.inj hk] at hr
        rcases mem_routes_addRoute hr with hr | rfl
        · exact (h _ _ ht r hr).trans hke.symm
        · exact hke.symm
      · exact h k b hk r hr
  | withdraw pfx length src pid =>
    intro k b hk r hr
    simp only [step, withdrawRoute] at hk
    cases ht : rib.table (keyOf pfx length) with
    | none => simp only [ht] at hk; exact h k b hk r hr
    | some b₀ =>
      simp only [ht] at hk
      split_ifs at hk with hemp
      · simp only [Function.update_apply] at hk
        split_ifs at hk
        exact h k b hk r hr
      · simp only [Function.update_apply] at hk
        split_ifs at hk with hke
        · rw [← Option.some.inj hk, routes_removeRoute] at hr
          exact (h _ _ ht r (List.mem_of_mem_filter hr)).trans hke.symm
        · exact h k b hk r hr
  | clear => intro k b hk; cases hk

theorem keyOf_published {rib : Rib W} (h : Inv rib) (hk : Keyed rib) {k : PrefixKey W}
    {b : RibBucket W} {x : ℕ × RibEntry W} (hb : rib.table k = some b) (hx : b.fibEntry = some x) :
    keyOf x.2.pfx x.2.length = k := by
  have hp := (h.bucket k b hb).published
  rw [hx, Option.map_some] at hp
  obtain ⟨y, hy, hyx⟩ := Option.map_eq_some_iff.1 hp.symm
  rw [← hyx]
  exact hk k b hb _ (List.mem_of_getElem? (isBest_of_bestSlot hy).slot)

end Rib

namespace RouteWatcher
variable {W : ℕ} {κ : Type}

/-! ## What cannot get lost -/

/-- The id is on the stack, or has been taken from it by a posted registration. -/
def Free (w : RouteWatcher W) (id : ℕ) : Prop := id ∈ w.availableIds ∨ id ∈ pendingIds w.queue

/-- What holds of the watcher and the calls at a later point of a task. -/
structure Later (s s' : Log W) : Prop where
  queue : ∀ t ∈ s.1.queue, t ∈ s'.1.queue
  free : ∀ id, Free s.1 id → Free s'.1 id
  keys : ∀ x' ∈ s'.1.addrWatches, ∃ x ∈ s.1.addrWatches, x'.1 = x.1
  calls : ∀ i ∈ s.2, i ∈ s'.2

namespace Later
variable {s s' s'' : Log W} {w : RouteWatcher W} {log : List (Invocation W)}

theorem refl (s : Log W) : Later s s :=
  ⟨fun _ h => h, fun _ h => h, fun x hx => ⟨x, hx, rfl⟩, fun _ h => h⟩

theorem trans (h : Later s s') (h' : Later s' s'') : Later s s'' := by
  refine ⟨fun t ht => h'.queue t (h.queue t ht), fun id hid => h'.free id (h.free id hid),
    fun x hx => ?_, fun i hi => h'.calls i (h.calls i hi)⟩
  obtain ⟨y, hy, hxy⟩ := h'.keys x hx
  obtain ⟨z, hz, hyz⟩ := h.keys y hy
  exact ⟨z, hz, hxy.trans hyz⟩

theorem of_sameIds {w' : RouteWatcher W} (h : SameIds w w') : Later (w, log) (w', log) := by
  refine ⟨fun t ht => ?_, fun id hid => ?_, fun x hx => ⟨x, ?_, rfl⟩, fun _ hi => hi⟩
  · rw [h.queue]; exact ht
  · rw [Free, h.available, h.queue]; exact hid
  · rw [← h.addrWatches]; exact hx

theorem pushId (w : RouteWatcher W) (id : ℕ) : Later (w, log) (w.pushId id, log) := by
  refine ⟨fun _ h => h, fun i hi => ?_, fun x hx => ⟨x, hx, rfl⟩, fun _ h => h⟩
  exact hi.imp_left fun h => List.mem_cons_of_mem _ h

theorem post (w : RouteWatcher W) (t : Task W) : Later (w, log) (w.post t, log) := by
  refine ⟨fun _ h => List.mem_append_left _ h, fun i hi => ?_, fun x hx => ⟨x, hx, rfl⟩,
    fun _ h => h⟩
  refine hi.imp_right fun h => ?_
  rw [RouteWatcher.post, pendingIds_concat]
  exact List.mem_append_left _ h

theorem register (w : RouteWatcher W) {t : Task W} (ht : pendingId t = some w.allocateId.1) :
    Later (w, log) (w.allocateId.2.post t, log) := by
  cases hs : w.availableIds with
  | nil =>
    rw [allocateId_nil hs]
    have hnew : Later (w, log) ({ w with nextId := w.nextId + 1 }, log) :=
      ⟨fun _ h => h, fun _ h => h, fun x hx => ⟨x, hx, rfl⟩, fun _ h => h⟩
    exact hnew.trans (post _ t)
  | cons id ids =>
    rw [allocateId_cons hs] at ht ⊢
    refine ⟨fun _ h => List.mem_append_left _ h, fun i hi => ?_, fun x hx => ⟨x, hx, rfl⟩,
      fun _ h => h⟩
    simp only [Free, RouteWatcher.post, pendingIds_concat, ht, Option.toList_some]
    rcases hi with hi | hi
    · rw [hs] at hi
      rcases List.mem_cons.1 hi with rfl | hi
      · exact Or.inr (List.mem_append_right _ List.mem_cons_self)
      · exact Or.inl hi
    · exact Or.inr (List.mem_append_left _ hi)

theorem call (rib : Rib W) (env : Env W) (w : RouteWatcher W) (c : Call W) :
    Later (w, log) (w.call rib env c, log) := by
  cases c with
  | watchRoute => exact register w rfl
  | watchAddress =>
    simp only [RouteWatcher.call]
    split_ifs
    · exact refl _
    · exact register w rfl
  | watchProtocol => exact register w rfl
  | remove => exact post _ _
  | rib => exact post _ _

theorem invoke (rib : Rib W) (env : Env W) (i : Invocation W) (s : Log W) :
    Later s (invoke rib env i s).2 := by
  have hcalls : ∀ (cs : List (Call W)) (w : RouteWatcher W),
      Later (w, s.2) (cs.foldl (RouteWatcher.call rib env) w, s.2) := by
    intro cs
    induction cs with
    | nil => exact fun w => refl _
    | cons c cs ih => exact fun w => (call rib env w c).trans (ih _)
  refine (hcalls (env.reply s.2.length i).2 s.1).trans ?_
  exact ⟨fun _ h => h, fun _ h => h, fun x hx => ⟨x, hx, rfl⟩, fun _ h => List.mem_append_left _ h⟩

theorem writeState (w : RouteWatcher W) (state : ℕ) (f : AddrWatchState W → AddrWatchState W) :
    Later (w, log) (w.writeState state f, log) := by
  refine ⟨fun _ h => h, fun _ h => h, fun x hx => ?_, fun _ h => h⟩
  obtain ⟨y, hy, rfl | ⟨-, rfl⟩⟩ := mem_writeState hx
  · exact ⟨x, hy, rfl⟩
  · exact ⟨y, hy, rfl⟩

theorem deliver (rib : Rib W) (env : Env W) (st : AddrWatchState W) (cur : Option (Ptr W))
    (s : Log W) : Later s (deliver rib env st cur s).2 := by
  unfold RouteWatcher.deliver
  split_ifs
  · exact refl _
  · exact (writeState s.1 _ _).trans (invoke ..)

theorem repin (rib : Rib W) (env : Env W) (st : AddrWatchState W) (cur : Ptr W)
    (w : RouteWatcher W) : Later (w, log) (repin rib env st cur w, log) := by
  have hreg : Later (w, log) ((w.watchRoute (read rib env cur).pfx (read rib env cur).length
      (.addrWatch st.state) {}).2, log) := register w rfl
  unfold RouteWatcher.repin
  refine hreg.trans ?_
  exact writeState ..

theorem releaseAddr (st : AddrWatchState W) (w : RouteWatcher W) :
    Later (w, log) (releaseAddr st w, log) := by
  refine (pushId w st.addrId).trans ⟨fun _ h => h, fun _ h => h, fun x hx => ?_, fun _ h => h⟩
  exact ⟨x, List.mem_of_mem_filter hx, rfl⟩

theorem addrWatchCallback (rib : Rib W) (env : Env W) (state : ℕ) (cur : Option (Ptr W))
    (s : Log W) : Later s (addrWatchCallback rib env state cur s).2 := by
  have hd := deliver rib env (s.1.stateAt env state) (resolve rib env (s.1.stateAt env state) cur) s
  simp only [RouteWatcher.addrWatchCallback]
  split <;> split_ifs
  · exact hd.trans (releaseAddr _ _)
  · exact hd.trans (repin ..)
  · exact hd
  · exact hd.trans (releaseAddr _ _)
  · exact hd

theorem callNode (rib : Rib W) (env : Env W) (kind : WatchKind) (n : WatchNode W)
    (old cur : Option (Ptr W)) (s : Log W) : Later s (callNode rib env kind n old cur s).2 := by
  unfold RouteWatcher.callNode
  split
  · exact invoke ..
  · exact addrWatchCallback ..

theorem fireNodes {eraseId : ℕ → RouteWatcher W → RouteWatcher W}
    (hE : ∀ id w, SameIds w (eraseId id w)) (rib : Rib W) (env : Env W) (kind : WatchKind)
    (fire : κ → Bool) (getCur : WatchNode W → Option (Ptr W)) (xs : List (κ × WatchNode W))
    (s : Log W) : Later s (fireNodes rib env kind eraseId fire getCur xs s).2 := by
  induction xs generalizing s with
  | nil => exact refl _
  | cons x xs ih =>
    rw [fireNodes_cons]
    refine Later.trans ?_ (ih _)
    unfold fireStep
    split_ifs
    · exact refl _
    · unfold fireNode
      split_ifs
      · exact refl _
      · have hc := callNode rib env kind x.2 x.2.lastKnown (getCur x.2) s
        simp only
        split_ifs
        · exact (hc.trans (pushId _ _)).trans (of_sameIds (hE _ _))
        · exact hc
    · exact refl _

end Later

end RouteWatcher

namespace RouteWatcher
variable {W : ℕ}

/-! ## What a withdrawal has to do -/

/-- The node `y` is the proxy of the address watch `x`, on the prefix `k`. -/
def IsProxy (x : ℕ × AddrWatchState W) (k : PrefixKey W) (y : PrefixKey W × WatchNode W) : Prop :=
  y.1 = k ∧ y.2.canceled = false ∧ proxyOf y.2 = some (x.2.prefixId, x.2.state)

def Registers (x : ℕ × AddrWatchState W) (k : PrefixKey W) : Task W → Prop
  | .addPrefix k' id (.addrWatch state) _ => k' = k ∧ id = x.2.prefixId ∧ state = x.2.state
  | _ => False

/-- The address watch `x` is pinned to the prefix `k`: its proxy is registered there, or
    the registration has been posted. -/
def Pinned (w : RouteWatcher W) (x : ℕ × AddrWatchState W) (k : PrefixKey W) : Prop :=
  (∃ y ∈ w.prefixWatchTable, IsProxy x k y) ∨ ∃ t ∈ w.queue, Registers x k t

instance (x : ℕ × AddrWatchState W) (k : PrefixKey W) (y : PrefixKey W × WatchNode W) :
    Decidable (IsProxy x k y) := by unfold IsProxy; infer_instance

instance (x : ℕ × AddrWatchState W) (k : PrefixKey W) (t : Task W) :
    Decidable (Registers x k t) :=
  match t with
  | .addPrefix _ _ (.addrWatch _) _ => inferInstanceAs (Decidable (_ ∧ _ ∧ _))
  | .addPrefix _ _ (.user _ _) _ | .addAddress .. | .addProtocol .. | .remove _ | .rib _ =>
    inferInstanceAs (Decidable False)

instance (w : RouteWatcher W) (x : ℕ × AddrWatchState W) (k : PrefixKey W) :
    Decidable (Pinned w x k) := by unfold Pinned; infer_instance

structure Released (w : RouteWatcher W) (x : ℕ × AddrWatchState W) : Prop where
  gone : ∀ y ∈ w.addrWatches, y.1 ≠ x.1
  addrId : Free w x.1
  prefixId : Free w x.2.prefixId

/-- The call of the user's function of `x`, with the route delivered last and the match `m`. -/
def failover (x : ℕ × AddrWatchState W) (m : Option (PrefixKey W × ℕ × RibEntry W)) : Invocation W :=
  ⟨.address, x.2.userFn, x.2.userCtx, x.1, x.2.lastUserRoute, m.map fun m => .copy m.1 m.2.1⟩

/-- What the address watch `x` has come to, with the match `m`: its function has been
    called with it; without a match, it is released; with one, it is being pinned to the
    prefix of the match, or released if the function has canceled it. -/
structure FailedOver (env : Env W) (x : ℕ × AddrWatchState W)
    (m : Option (PrefixKey W × ℕ × RibEntry W)) (s : Log W) : Prop where
  called : failover x m ∈ s.2
  lost : m = none → Released s.1 x
  found : ∀ m' ∈ m, (∃ x' ∈ s.1.addrWatches, x'.1 = x.1 ∧ x'.2 = { x.2 with
      prefixId := x'.2.prefixId, lastUserRoute := some (.copy m'.1 m'.2.1) } ∧
      ∃ t ∈ s.1.queue, Registers x' m'.1 t) ∨
    ((∃ n, (env.reply n (failover x m)).1 = true) ∧ Released s.1 x)

section
variable {w : RouteWatcher W} {held : List ℕ} {prox : List (ℕ × ℕ)} {rib : Rib W} {env : Env W}
  {x : ℕ × AddrWatchState W} {m : Option (PrefixKey W × ℕ × RibEntry W)}

/-- What has been done stays done, as long as the state of the watch is not touched. -/
theorem FailedOver.later {s s' : Log W} (h : FailedOver env x m s) (hl : Later s s')
    (hkeep : ∀ x' ∈ s.1.addrWatches, x'.2.state = x.2.state → x' ∈ s'.1.addrWatches) :
    FailedOver env x m s' := by
  have hrel : Released s.1 x → Released s'.1 x := by
    intro hr
    refine ⟨fun y hy hyx => ?_, hl.free _ hr.addrId, hl.free _ hr.prefixId⟩
    obtain ⟨z, hz, hyz⟩ := hl.keys y hy
    exact hr.gone z hz (hyz.symm.trans hyx)
  refine ⟨hl.calls _ h.called, fun hm => hrel (h.lost hm), fun m' hm' => ?_⟩
  rcases h.found m' hm' with ⟨x', hx', hid, hx'', t, ht, htx⟩ | ⟨hn, hr⟩
  · exact Or.inl ⟨x', hkeep x' hx' (by rw [hx'']), hid, hx'', t, hl.queue t ht, htx⟩
  · exact Or.inr ⟨hn, hrel hr⟩

theorem released_pushId (h : IdsInv w held prox) (hx : x ∈ w.addrWatches) (w' : RouteWatcher W) :
    Released ((releaseAddr x.2 w').pushId x.2.prefixId) x := by
  have hid := (h.addr x hx).1
  refine ⟨fun y hy => ?_, Or.inl ?_, Or.inl List.mem_cons_self⟩
  · rw [← hid]; simpa using (List.mem_filter.1 hy).2
  · rw [← hid]; exact List.mem_cons_of_mem _ List.mem_cons_self

theorem mem_repin (hx : x ∈ w.addrWatches) (st : AddrWatchState W) (hs : x.2.state = st.state)
    (cur : Ptr W) :
    (x.1, { x.2 with prefixId := w.allocateId.1 }) ∈ (repin rib env st cur w).addrWatches ∧
      Task.addPrefix (Rib.keyOf (read rib env cur).pfx (read rib env cur).length) w.allocateId.1
        (.addrWatch st.state) {} ∈ (repin rib env st cur w).queue := by
  refine ⟨?_, List.mem_append_right _ (List.mem_singleton.2 rfl)⟩
  rw [addrWatches_repin]
  exact List.mem_map.2 ⟨x, hx, if_pos hs⟩

/-- The proxy of `x` is called because its prefix is gone.  It answers `true`, upon which
    its id is given back. -/
theorem failedOver_callback (h : IdsInv w held prox) (hx : x ∈ w.addrWatches)
    (hres : resolve rib env x.2 none = m.map fun m => .copy m.1 m.2.1)
    (hkey : ∀ m' ∈ m, Rib.keyOf (read rib env (.copy m'.1 m'.2.1)).pfx
      (read rib env (.copy m'.1 m'.2.1)).length = m'.1)
    (hne : routesEqual (x.2.lastUserRoute.map (read rib env))
      ((m.map fun m => .copy m.1 m.2.1).map (read rib env)) = false)
    (log : List (Invocation W)) :
    (addrWatchCallback rib env x.2.state none (w, log)).1 = true ∧
      FailedOver env x m
        ((addrWatchCallback rib env x.2.state none (w, log)).2.1.pushId x.2.prefixId,
         (addrWatchCallback rib env x.2.state none (w, log)).2.2) := by
  have hst : w.stateAt env x.2.state = x.2 := by
    obtain ⟨a, ha, has, hst⟩ := exists_stateAt env ⟨x, hx, rfl⟩
    rw [hst, List.inj_on_of_nodup_map h.states ha hx has]
  have hid := (h.addr x hx).1
  have hdel : deliver rib env x.2 (m.map fun m => .copy m.1 m.2.1) (w, log) =
      invoke rib env (failover x m) (w.writeState x.2.state
        (fun a => { a with lastUserRoute := m.map fun m => .copy m.1 m.2.1 }), log) := by
    rw [deliver, if_neg (by rw [hne]; simp), hid]; rfl
  have hcalled : failover x m ∈ log ++ [failover x m] := by simp
  simp only [addrWatchCallback, hst, hres, hdel]
  cases m with
  | none =>
    simp only [Option.map_none, Option.isNone_none, true_or, if_true]
    refine ⟨trivial, hcalled, fun _ => released_pushId h hx _, fun m' hm' => ?_⟩
    cases hm'
  | some m' =>
    simp only [Option.map_some, Option.isNone_none, if_true]
    split_ifs with hr
    · refine ⟨rfl, hcalled, fun hm => absurd hm (by simp), fun m'' _ => Or.inr ?_⟩
      exact ⟨⟨_, hr⟩, released_pushId h hx _⟩
    · refine ⟨rfl, hcalled, fun hm => absurd hm (by simp), fun m'' hm'' => Or.inl ?_⟩
      cases hm''
      have hmem : (x.1, { x.2 with lastUserRoute := some (.copy m'.1 m'.2.1) }) ∈
          (invoke rib env (failover x (some m')) (w.writeState x.2.state
            (fun a => { a with lastUserRoute := some (.copy m'.1 m'.2.1) }), log)).2.1.addrWatches := by
        rw [addrWatches_invoke]
        exact List.mem_map.2 ⟨x, hx, if_pos rfl⟩
      obtain ⟨hx', ht⟩ := mem_repin hmem x.2 rfl (.copy m'.1 m'.2.1)
      exact ⟨_, hx', rfl, rfl, _, ht, hkey m' rfl, rfl, rfl⟩

theorem failedOver_fireNodes {eraseId : ℕ → RouteWatcher W → RouteWatcher W} {kind : WatchKind}
    (hE : ∀ id w, SameIds w (eraseId id w)) {fire : PrefixKey W → Bool}
    {getCur : WatchNode W → Option (Ptr W)} {xs : List (PrefixKey W × WatchNode W)}
    (h : Firing rib env fire getCur w xs held prox) (hx : x ∈ w.addrWatches)
    {y : PrefixKey W × WatchNode W} (hy : y ∈ xs) (hf : fire y.1 = true) (hyx : IsProxy x y.1 y)
    (hcur : getCur y.2 = none) (hlk : y.2.lastKnown ≠ none)
    (hres : resolve rib env x.2 none = m.map fun m => .copy m.1 m.2.1)
    (hkey : ∀ m' ∈ m, Rib.keyOf (read rib env (.copy m'.1 m'.2.1)).pfx
      (read rib env (.copy m'.1 m'.2.1)).length = m'.1)
    (hne : routesEqual (x.2.lastUserRoute.map (read rib env))
      ((m.map fun m => .copy m.1 m.2.1).map (read rib env)) = false)
    (log : List (Invocation W)) :
    FailedOver env x m (fireNodes rib env kind eraseId fire getCur xs (w, log)).2 := by
  obtain ⟨-, hyc, hyp⟩ := hyx
  induction xs generalizing w log held prox with
  | nil => cases hy
  | cons z xs ih =>
    obtain ⟨k, n⟩ := z
    obtain ⟨hstep, hkeep⟩ := h.step rib env kind hE log
    rw [fireNodes_cons]
    -- the proxies before and after that of `x` point to other states
    have hother : n.canceled = false → ∀ p ∈ proxyOf n, ∀ q ∈ proxies xs,
        q.2 = x.2.state → p.2 ≠ x.2.state := by
      intro hc p hp q hq hqs hps
      have hids := h.ids
      rw [liveIds_cons_live hc, proxies_cons_live hc, List.append_assoc] at hids
      refine state_ne_of_proxy hids (registered h.passed xs) (List.mem_append_left _ hq) hp ?_
        (hqs.trans hps.symm)
      exact ⟨x, hx, hqs.symm⟩
    rcases List.mem_cons.1 hy with rfl | hy
    · simp only at hf hyc hyp hcur hlk
      have hid : n.id = x.2.prefixId := (proxyOf_fst hyp).symm
      have hfn : n.fn = .addrWatch x.2.state := by
        unfold proxyOf at hyp
        split at hyp
        · cases hyp
        · rename_i state hn
          rw [hn, (Prod.mk.inj (Option.some.inj hyp)).2]
      obtain ⟨hr, hdone⟩ := failedOver_callback h.ids hx hres hkey hne log
      have hd : ¬ routesEqual (n.lastKnown.map (read rib env)) none = true := by
        rw [routesEqual_none]
        simpa using hlk
      have hfire : fireStep rib env kind eraseId fire getCur (k, n) (w, log) =
          (none, eraseId x.2.prefixId
            ((addrWatchCallback rib env x.2.state none (w, log)).2.1.pushId x.2.prefixId),
            (addrWatchCallback rib env x.2.state none (w, log)).2.2) := by
        simp only [fireStep, hf, hyc, fireNode, hcur, Option.map_none, callNode, hfn, hr, hid]
        simp [hd]
      have hdone' : FailedOver env x m (fireStep rib env kind eraseId fire getCur (k, n) (w, log)).2 := by
        rw [hfire]
        refine hdone.later (Later.of_sameIds (hE _ _)) fun x' hx' _ => ?_
        rw [(hE _ _).addrWatches]; exact hx'
      refine hdone'.later (Later.fireNodes hE rib env kind fire getCur xs _) fun x' hx' hs => ?_
      refine (hstep.fireNodes rib env kind hE _).2 x' hx' fun p hp hps => ?_
      exact hother hyc _ hyp p hp (hps.symm.trans hs) rfl
    · refine ih hstep (hkeep x hx fun p hp hps => ?_) hy _
      obtain ⟨z, hz, hzp⟩ := List.mem_filterMap.1 hp
      rw [List.mem_singleton] at hz
      subst hz
      split_ifs at hzp with hc
      refine hother (by simpa using hc) p hzp _ (mem_proxies hy hyc hyp) rfl hps.symm

theorem failedOver_announce (h : WatchInv w) {k : PrefixKey W} {b : RibBucket W}
    (hk : Rib.keyOf k.1 k.2 = k) (hb : b.routes = []) (hbest : b.bestEntry = none)
    (hprev : b.prevBest ≠ none)
    (ha : ∀ x ∈ w.prefixWatchTable, x.1 = k → x.2.canceled = false →
      Differs rib env x.2 (computeBestForPrefix k b x.2.filter) → ∀ p ∈ proxyOf x.2, StateAlive w p.2)
    (hx : x ∈ w.addrWatches) {y : PrefixKey W × WatchNode W} (hy : y ∈ w.prefixWatchTable)
    (hyx : IsProxy x k y) (hlk : y.2.lastKnown ≠ none)
    (hres : resolve rib env x.2 none = m.map fun m => .copy m.1 m.2.1)
    (hkey : ∀ m' ∈ m, Rib.keyOf (read rib env (.copy m'.1 m'.2.1)).pfx
      (read rib env (.copy m'.1 m'.2.1)).length = m'.1)
    (hne : routesEqual (x.2.lastUserRoute.map (read rib env))
      ((m.map fun m => .copy m.1 m.2.1).map (read rib env)) = false) :
    FailedOver env x m (announceRouteChange rib env k b (w, [])) := by
  have hcur : computeBestForPrefix k b y.2.filter = none := by
    unfold computeBestForPrefix
    split_ifs
    · rw [getBestRoute, hb]; rfl
    · rw [hbest]; rfl
  have hmoved : b.bestEntry ≠ b.prevBest := by rw [hbest]; exact fun h => hprev h.symm
  simp only [announceRouteChange, hk, if_pos hmoved, announceProtocol, hb, List.isEmpty_nil, if_true]
  have hyk : y.1 = k := hyx.1
  have hfire : Firing rib env (· = k) (fun n => computeBestForPrefix k b n.filter) w
      w.prefixWatchTable (liveIds w.protocolWatchTable) [] := h.firingPrefix rib env ha
  have hloop : FailedOver env x m (fireNodes rib env .route erasePrefixId (· = k)
      (fun n => computeBestForPrefix k b n.filter) w.prefixWatchTable (w, [])).2 :=
    failedOver_fireNodes sameIds_erasePrefixId hfire hx hy (by simpa using hyk) (hyk ▸ hyx) hcur hlk
      hres hkey hne []
  have hpre : FailedOver env x m
      (firePrefix rib env k (fun n => computeBestForPrefix k b n.filter) (w, [])) :=
    hloop.later (Later.of_sameIds ⟨rfl, rfl, rfl, rfl, rfl⟩) fun x' hx' _ => hx'
  have hinv : WatchInv (firePrefix rib env k (fun n => computeBestForPrefix k b n.filter) (w, [])).1 :=
    h.firePrefix rib env [] ha
  revert hpre hinv
  generalize firePrefix rib env k (fun n => computeBestForPrefix k b n.filter) (w, []) = s
  intro hpre hinv
  -- the protocol watches do not touch the address watches
  refine (hpre.later (Later.fireNodes sameIds_eraseProtocolId rib env .protocol (fun _ => true)
    (fun _ => none) s.1.protocolWatchTable s) fun x' hx' _ => ?_).later
      (Later.of_sameIds ⟨rfl, rfl, rfl, rfl, rfl⟩) fun x' hx' _ => hx'
  refine ((hinv.firingProtocol rib env (fun _ => true) none).fireNodes rib env .protocol
    sameIds_eraseProtocolId s.2).2 x' hx' fun p hp => ?_
  rw [proxies_users hinv.users] at hp; cases hp

end

end RouteWatcher

namespace RibSystem
variable {W : ℕ}
open RouteWatcher

/-! ## Runs -/

/-- **Address watches fail over**: when the last route of a prefix is withdrawn, every
    address watch that is pinned to it is told the longest match that is left and passes
    its filter, and follows it or is released. -/
def AddrReported (s : RibSystem W) (e : Event W) : Prop :=
  match e, s.watcher.queue with
  | .exec env, .rib (.withdraw pfx length _ _) :: _ =>
    (s.rib.table (Rib.keyOf pfx length)).isSome →
      ((s.step e).rib.table (Rib.keyOf pfx length)).isNone →
      ∀ x ∈ s.watcher.addrWatches, Pinned s.watcher x (Rib.keyOf pfx length) →
        FailedOver env x ((s.step e).rib.passingMatch x.2.filter x.2.addr)
          ((s.step e).watcher, s.calls e)
  | _, _ => True

/-- The proxy of `x` is registered on `k` and remembers a route, the route delivered
    last differs from the match that is left, and that is the longest of all. -/
def AddrTracked (rib' : Rib W) (env : Env W) (w : RouteWatcher W) (k : PrefixKey W)
    (x : ℕ × AddrWatchState W) : Prop :=
  (∃ y ∈ w.prefixWatchTable, IsProxy x k y ∧ y.2.lastKnown ≠ none) ∧
    routesEqual (x.2.lastUserRoute.map (read rib' env))
      ((rib'.passingMatch x.2.filter x.2.addr).map (·.2.2)) = false ∧
    rib'.LongestPasses x.2.filter x.2.addr

/-- The condition on the withdrawal of a last route. -/
def addrTaskOk (rib : Rib W) (env : Env W) (w : RouteWatcher W) : Task W → Prop
  | .rib (.withdraw pfx length src pid) =>
    (rib.table (Rib.keyOf pfx length)).isSome →
      ((rib.step (.withdraw pfx length src pid)).table (Rib.keyOf pfx length)).isNone →
      ∀ x ∈ w.addrWatches, Pinned w x (Rib.keyOf pfx length) →
        AddrTracked (rib.step (.withdraw pfx length src pid)) env w (Rib.keyOf pfx length) x
  | _ => True

def addrOk (s : RibSystem W) (e : Event W) : Prop :=
  idsOk s e ∧ match e with
    | .call _ _ => True
    | .exec env => ∀ t ∈ s.watcher.queue.head?, addrTaskOk s.rib env s.watcher t

instance (rib' : Rib W) (env : Env W) (w : RouteWatcher W) (k : PrefixKey W)
    (x : ℕ × AddrWatchState W) : Decidable (AddrTracked rib' env w k x) := by
  unfold AddrTracked; infer_instance

instance (rib : Rib W) (env : Env W) (w : RouteWatcher W) (t : Task W) :
    Decidable (addrTaskOk rib env w t) :=
  match t with
  | .rib (.withdraw pfx length _ _) => inferInstanceAs (Decidable (_ → _ → ∀ x ∈ w.addrWatches,
      Pinned w x (Rib.keyOf pfx length) → AddrTracked _ env w (Rib.keyOf pfx length) x))
  | .rib (.install _) | .rib .clear | .addPrefix .. | .addAddress .. | .addProtocol .. | .remove _ =>
    inferInstanceAs (Decidable True)

instance (s : RibSystem W) (e : Event W) : Decidable (addrOk s e) :=
  match e with
  | .call c env => inferInstanceAs (Decidable (idsOk s (.call c env) ∧ True))
  | .exec env => inferInstanceAs (Decidable (idsOk s (.exec env) ∧
      ∀ t ∈ s.watcher.queue.head?, addrTaskOk s.rib env s.watcher t))

section
variable {rib : Rib W} {env : Env W}

theorem read_lookup {a : BitVec W} {m : PrefixKey W × ℕ × RibEntry W} (h : rib.lookup a = some m) :
    read rib env (.copy m.1 m.2.1) = m.2.2 ∧
      ∃ b, rib.table m.1 = some b ∧ b.fibEntry = some m.2 := by
  obtain ⟨k, -, hk⟩ := Option.bind_eq_some_iff.1 h
  obtain ⟨b, hb, hbx⟩ := Option.bind_eq_some_iff.1 hk
  obtain ⟨e, he, rfl⟩ := Option.map_eq_some_iff.1 hbx
  exact ⟨by simp [read, hb, he], b, hb, he⟩

theorem applyFilter_fibLookup (f : WatchFilter) (a : BitVec W) :
    applyFilter rib env f (fibLookup rib a) =
      ((rib.lookup a).filter fun x => f.pass x.2.2).map fun m => .copy m.1 m.2.1 := by
  rw [applyFilter, fibLookup]
  cases hm : rib.lookup a with
  | none => rfl
  | some m =>
    simp only [Option.map_some, Option.filter_some, (read_lookup hm).1]
    split_ifs <;> rfl

theorem resolve_withdrawn {st : AddrWatchState W} (h : rib.LongestPasses st.filter st.addr) :
    resolve rib env st none =
      (rib.passingMatch st.filter st.addr).map fun m => .copy m.1 m.2.1 := by
  rw [Rib.passingMatch_of_longest h]
  exact applyFilter_fibLookup st.filter st.addr

end

structure SystemInv (s : RibSystem W) : Prop where
  watch : WatchInv s.watcher
  rib : Rib.Inv s.rib
  keyed : Rib.Keyed s.rib

theorem systemInv_step (s : RibSystem W) (e : Event W) (h : SystemInv s) (hok : addrOk s e) :
    SystemInv (s.step e) := by
  refine ⟨watchInv_step s e h.watch hok.1, ribInv_step s e h.rib, ?_⟩
  rcases rib_step s e with hr | ⟨op, hr⟩
  · rw [hr]; exact h.keyed
  · rw [hr]; exact Rib.keyed_step h.keyed op

theorem systemInv_nil : SystemInv ({} : RibSystem W) :=
  ⟨watchInv_nil, Rib.inv_run [], fun _ _ hk => by (cases hk)⟩

theorem read_passingMatch {rib : Rib W} {env : Env W} {f : WatchFilter} {a : BitVec W}
    (h : rib.LongestPasses f a) {m : PrefixKey W × ℕ × RibEntry W}
    (hm : rib.passingMatch f a = some m) :
    read rib env (.copy m.1 m.2.1) = m.2.2 ∧
      ∃ b, rib.table m.1 = some b ∧ b.fibEntry = some m.2 := by
  rw [Rib.passingMatch_of_longest h] at hm
  exact read_lookup (Option.filter_eq_some_iff.1 hm).1

theorem announced_last {rib : Rib W} (h : Rib.Inv rib) {pfx : BitVec W} {length pid : ℕ}
    {src : RouteSource} (hsome : (rib.table (Rib.keyOf pfx length)).isSome)
    (hnone : ((rib.step (.withdraw pfx length src pid)).table (Rib.keyOf pfx length)).isNone) :
    ∃ b, announced rib (.withdraw pfx length src pid) = some b ∧ b.routes = [] ∧
      b.bestEntry = none ∧ b.prevBest ≠ none := by
  obtain ⟨b₀, hb₀⟩ := Option.isSome_iff_exists.1 hsome
  have hann : ∃ b, announced rib (.withdraw pfx length src pid) = some b := by
    simp only [announced, Rib.withdrawRoute, hb₀]
    split_ifs
    · exact ⟨_, rfl⟩
    · exact ⟨_, rfl⟩
  obtain ⟨b, hb⟩ := hann
  have he := edited_announced rfl hb
  have hempty : b.routes = [] := by
    by_contra hne
    rw [he.table, if_neg hne] at hnone
    cases hnone
  refine ⟨b, hb, hempty, by rw [he.best, hempty]; rfl, ?_⟩
  have hok := h.bucket _ _ hb₀
  rw [he.prev, hb₀, Option.bind_some, hok.best, Ne, Option.map_eq_none_iff, bestSlot_eq_none]
  intro hall
  exact hok.nonempty (List.eq_nil_iff_forall_not_mem.2 fun r hr => by simpa using hall r hr)

theorem addrReported_step (s : RibSystem W) (e : Event W) (h : SystemInv s) (hok : addrOk s e) :
    AddrReported s e := by
  unfold AddrReported
  split
  · rename_i env pfx length src pid ts hq
    intro hsome hnone x hx hpin
    have hrib : (s.step (.exec env)).rib = s.rib.step (.withdraw pfx length src pid) := by
      rw [step, exec_rib hq]
    rw [hrib] at hnone ⊢
    obtain ⟨b, hb, hempty, hbest, hprev⟩ := announced_last h.rib hsome hnone
    have hhead : Task.rib (.withdraw pfx length src pid) ∈ s.watcher.queue.head? := by rw [hq]; rfl
    obtain ⟨⟨y, hy, hyx, hlk⟩, hne, hlong⟩ := hok.2 _ hhead hsome hnone x hx hpin
    have hpop : WatchInv { s.watcher with queue := ts } :=
      ⟨h.watch.ids.pop hq, h.watch.prefixMap, h.watch.protocolMap, h.watch.users⟩
    have hfo := failedOver_announce hpop (Rib.keyOf_keyOf pfx length) hempty hbest hprev
      (fun z hz hzk hzc hd => (hok.1 _ hhead).1 z hz hzc
        ⟨congrArg some hzk.symm, b, hb, by rw [hbest]; exact fun h => hprev h.symm, hzk ▸ hd⟩)
      hx hy hyx hlk (resolve_withdrawn hlong) (fun m' hm' => ?_) ?_
    · rw [step, calls, exec_rib hq, execOp_announced rfl hb]
      exact hfo
    · obtain ⟨hread, b', hb', hx'⟩ := read_passingMatch hlong hm'
      rw [hread]
      exact Rib.keyOf_published (Rib.inv_step h.rib _) (Rib.keyed_step h.keyed _) hb' hx'
    · rw [← hne, Option.map_map]
      congr 1
      cases hm : (s.rib.step (.withdraw pfx length src pid)).passingMatch x.2.filter x.2.addr with
      | none => rfl
      | some m => exact congrArg some (read_passingMatch hlong hm).1
  · trivial

/-- **Address watches fail over** along every run in which their proxies are registered and
    remember a route when the last route of their prefix is withdrawn. -/
theorem addrReported_run (es : List (Event W)) (h : Run.Along addrOk step ({} : RibSystem W) es) :
    Run.Along AddrReported step ({} : RibSystem W) es :=
  Run.Along.imp_of_invariant systemInv_step addrReported_step systemInv_nil h

/-- The proxy has been called twice when the prefix goes, and is pinned to the default
    route. -/
theorem addrReported_run_follows : Run.Along AddrReported step ({} : RibSystem 32)
    [.call (.rib (.install ⟨0, 0, .STATIC, 0, 1, 0, 0, []⟩)) (.plain false), .exec (.plain false),
     .call (.rib (.install ⟨0x0A000000, 8, .BGP, 1, 20, 0, 0, []⟩)) (.plain false),
     .exec (.plain false),
     .call (.watchAddress 0x0A000001 7 0 {}) (.plain false), .exec (.plain false),
     .exec (.plain false),
     .call (.rib (.install ⟨0x0A000000, 8, .STATIC, 0, 1, 5, 0, []⟩)) (.plain false),
     .exec (.plain false),
     .call (.rib (.withdraw 0x0A000000 8 .STATIC 0)) (.plain false), .exec (.plain false),
     .call (.rib (.withdraw 0x0A000000 8 .BGP 1)) (.plain false), .exec (.plain false)] :=
  addrReported_run _ (by decide +kernel)

theorem not_addrReported {s : RibSystem W} {env : Env W} {pfx : BitVec W} {length pid : ℕ}
    {src : RouteSource} {ts : List (Task W)}
    (hq : s.watcher.queue = .rib (.withdraw pfx length src pid) :: ts)
    (hsome : (s.rib.table (Rib.keyOf pfx length)).isSome)
    (hnone : ((s.step (.exec env)).rib.table (Rib.keyOf pfx length)).isNone)
    (hx : ∃ x ∈ s.watcher.addrWatches, Pinned s.watcher x (Rib.keyOf pfx length))
    (hcalls : s.calls (.exec env) = []) : ¬ AddrReported s (.exec env) := by
  intro h
  obtain ⟨x, hxm, hpin⟩ := hx
  simp only [AddrReported, hq] at h
  have hcalled := (h hsome hnone x hxm hpin).called
  rw [hcalls] at hcalled
  cases hcalled

/-- A proxy that has not been called yet remembers no route, and is not called when the
    prefix goes. -/
theorem not_addrReported_fresh : ¬ Run.Along AddrReported step ({} : RibSystem 32)
    [.call (.rib (.install ⟨0x0A000000, 8, .BGP, 1, 20, 0, 0, []⟩)) (.plain false),
     .exec (.plain false),
     .call (.watchAddress 0x0A000001 7 0 {}) (.plain false), .exec (.plain false),
     .exec (.plain false),
     .call (.rib (.withdraw 0x0A000000 8 .BGP 1)) (.plain false), .exec (.plain false)] := by
  rintro ⟨-, -, -, -, -, -, h, -⟩
  refine @not_addrReported 32 _ (.plain false) 0x0A000000 8 1 .BGP [] ?_ ?_ ?_ ?_ ?_ h
  all_goals decide +kernel

end RibSystem

end VirtualRouter
