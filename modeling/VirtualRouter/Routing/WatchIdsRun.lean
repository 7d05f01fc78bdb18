/-
  The ids of the watches, along every run.

  The loops over the nodes (`fireNodes`, `fireAll`) are treated by induction over
  the nodes still to come: `held` are then the ids of the nodes passed.  An id map
  has an entry only for a node that is registered and not canceled (`MapSound`),
  so that a task of `remove` cancels a node whenever it gives an id back.
-/
import VirtualRouter.Lib.Run
import VirtualRouter.Routing.WatchIds

namespace VirtualRouter

namespace RouteWatcher
variable {W : ℕ} {κ : Type}

/-! ## The nodes of a table -/

section
variable {k : κ} {n : WatchNode W} {xs : List (κ × WatchNode W)}

theorem liveIds_cons_live (h : n.canceled = false) : liveIds ((k, n) :: xs) = n.id :: liveIds xs := by
  rw [liveIds, List.filterMap_cons]; simp only [h]; rfl

theorem liveIds_cons_canceled (h : n.canceled = true) : liveIds ((k, n) :: xs) = liveIds xs := by
  rw [liveIds, List.filterMap_cons]; simp only [h]; rfl

theorem proxies_cons_live (h : n.canceled = false) :
    proxies ((k, n) :: xs) = (proxyOf n).toList ++ proxies xs := by
  rw [proxies, List.filterMap_cons]
  simp only [h, Bool.false_eq_true, if_false]
  cases proxyOf n <;> rfl

theorem proxies_cons_canceled (h : n.canceled = true) : proxies ((k, n) :: xs) = proxies xs := by
  rw [proxies, List.filterMap_cons]; simp only [h]; rfl

theorem liveIds_append (xs ys : List (κ × WatchNode W)) :
    liveIds (xs ++ ys) = liveIds xs ++ liveIds ys := List.filterMap_append ..

theorem proxies_append (xs ys : List (κ × WatchNode W)) :
    proxies (xs ++ ys) = proxies xs ++ proxies ys := List.filterMap_append ..

theorem liveIds_option {o : Option (WatchNode W)} (h : ∀ n ∈ o, n.canceled = false) :
    liveIds (o.map fun n => (k, n)).toList = (o.map (·.id)).toList := by
  cases o with
  | none => rfl
  | some n => exact liveIds_cons_live (h n rfl)

theorem proxies_option {o : Option (WatchNode W)} (h : ∀ n ∈ o, n.canceled = false) :
    proxies (o.map fun n => (k, n)).toList = (o.bind proxyOf).toList := by
  cases o with
  | none => rfl
  | some n => exact (proxies_cons_live (h n rfl)).trans (List.append_nil _)

theorem proxyOf_fst {p : ℕ × ℕ} (h : p ∈ proxyOf n) : p.1 = n.id := by
  unfold proxyOf at h
  cases hn : n.fn with
  | user => rw [hn] at h; cases h
  | addrWatch state => rw [hn] at h; cases h; rfl

theorem mem_liveIds_of_proxy {p : ℕ × ℕ} (h : p ∈ proxies xs) : p.1 ∈ liveIds xs := by
  obtain ⟨x, hx, hp⟩ := List.mem_filterMap.1 h
  split_ifs at hp with hc
  rw [proxyOf_fst hp]
  exact List.mem_filterMap.2 ⟨x, hx, by rw [if_neg hc]⟩

theorem registered {held : List ℕ} {prox : List (ℕ × ℕ)} (h : ∀ p ∈ prox, p.1 ∈ held)
    (xs : List (κ × WatchNode W)) : ∀ p ∈ proxies xs ++ prox, p.1 ∈ liveIds xs ++ held := by
  intro p hp
  rcases List.mem_append.1 hp with hp | hp
  · exact List.mem_append_left _ (mem_liveIds_of_proxy hp)
  · exact List.mem_append_right _ (h p hp)

theorem mem_pendingIds_of_proxy {q : List (Task W)} {p : ℕ × ℕ} (h : p ∈ pendingProxies q) :
    p.1 ∈ pendingIds q := by
  obtain ⟨t, ht, hp⟩ := List.mem_filterMap.1 h
  refine List.mem_filterMap.2 ⟨t, ht, ?_⟩
  split at hp
  · cases hp; rfl
  · cases hp

end

/-! ## The loop of `fireNodes` -/

section
variable {w : RouteWatcher W} {held : List ℕ} {prox : List (ℕ × ℕ)}
  (rib : Rib W) (env : Env W) (kind : WatchKind) {eraseId : ℕ → RouteWatcher W → RouteWatcher W}

theorem IdsInv.swap {a b : List ℕ} {c d : List (ℕ × ℕ)}
    (h : IdsInv w (a ++ (b ++ held)) (c ++ (d ++ prox))) :
    IdsInv w (b ++ (a ++ held)) (d ++ (c ++ prox)) := by
  have hp : (a ++ (b ++ held)).Perm (b ++ (a ++ held)) := by
    rw [← List.append_assoc, ← List.append_assoc]
    exact List.Perm.append_right _ List.perm_append_comm
  refine (h.perm hp).subset fun p hp => ?_
  simp only [List.mem_append] at hp ⊢
  tauto

theorem ne_of_proxy {id : ℕ} (h : IdsInv w (id :: held) prox) (hids : ∀ p ∈ prox, p.1 ∈ held)
    {p : ℕ × ℕ} (hp : p ∈ prox ++ pendingProxies w.queue) : p.1 ≠ id := by
  have hnd := h.nodup
  rw [allIds, List.nodup_append] at hnd
  have hid := (List.nodup_cons.1 hnd.2.1).1
  rintro rfl
  refine hid ?_
  rcases List.mem_append.1 hp with hp | hp
  · exact List.mem_append_left _ (hids p hp)
  · exact List.mem_append_right _ (List.mem_append_right _ (mem_pendingIds_of_proxy hp))

theorem state_ne_of_proxy {n : WatchNode W}
    (h : IdsInv w (n.id :: held) ((proxyOf n).toList ++ prox)) (hids : ∀ p ∈ prox, p.1 ∈ held)
    {p q : ℕ × ℕ} (hp : p ∈ prox) (hq : q ∈ proxyOf n) (ha : StateAlive w p.2) : p.2 ≠ q.2 := by
  intro hpq
  obtain ⟨y, hy, hys⟩ := ha
  have hp₁ := (h.pinned p (by simp [hp])).2 y hy hys
  have hq₁ := (h.pinned q (by simp [Option.mem_def.1 hq])).2 y hy (hys.trans hpq)
  have h' : IdsInv w (n.id :: held) prox := h.subset fun p hp => List.mem_append_right _ hp
  refine ne_of_proxy h' hids (List.mem_append_left _ hp) ?_
  rw [← hp₁, hq₁, proxyOf_fst hq]

theorem StateAlive.keep {w' : RouteWatcher W} {state : ℕ} {o : Option (ℕ × ℕ)}
    (ha : StateAlive w state) (ho : ∀ p ∈ o, state ≠ p.2)
    (hkeep : ∀ x ∈ w.addrWatches, (∀ p ∈ o, x.2.state ≠ p.2) → x ∈ w'.addrWatches) :
    StateAlive w' state := by
  obtain ⟨x, hx, rfl⟩ := ha
  exact ⟨x, hkeep x hx ho, rfl⟩

theorem mem_proxies {k : κ} {n : WatchNode W} {xs : List (κ × WatchNode W)} {p : ℕ × ℕ}
    (hx : (k, n) ∈ xs) (hc : n.canceled = false) (hp : p ∈ proxyOf n) : p ∈ proxies xs :=
  List.mem_filterMap.2 ⟨_, hx, by rw [hc]; exact hp⟩

theorem fireNode_node (cur : Option (Ptr W)) (n : WatchNode W) (s : Log W) :
    ∀ n' ∈ (fireNode rib env kind eraseId cur n s).1,
      n'.id = n.id ∧ n'.fn = n.fn ∧ n'.canceled = n.canceled := by
  intro n' hn'
  unfold fireNode at hn'
  split_ifs at hn' with he
  · cases hn'; exact ⟨rfl, rfl, rfl⟩
  · simp only at hn'
    split_ifs at hn'
    · cases hn'
    · cases hn'; exact ⟨rfl, rfl, rfl⟩

theorem proxyOf_congr {n n' : WatchNode W} (hid : n'.id = n.id) (hfn : n'.fn = n.fn) :
    proxyOf n' = proxyOf n := by rw [proxyOf, proxyOf, hid, hfn]

theorem IdsInv.fireNode (hE : ∀ id w, SameIds w (eraseId id w)) {n : WatchNode W}
    (cur : Option (Ptr W)) (log : List (Invocation W))
    (h : IdsInv w (n.id :: held) ((proxyOf n).toList ++ prox)) (hids : ∀ p ∈ prox, p.1 ∈ held)
    (ha : Differs rib env n cur → ∀ p ∈ proxyOf n, StateAlive w p.2) :
    IdsInv (fireNode rib env kind eraseId cur n (w, log)).2.1
      (((fireNode rib env kind eraseId cur n (w, log)).1.map (·.id)).toList ++ held)
      (((fireNode rib env kind eraseId cur n (w, log)).1.bind proxyOf).toList ++ prox) ∧
      ∀ x ∈ w.addrWatches, (∀ p ∈ proxyOf n, x.2.state ≠ p.2) →
        x ∈ (fireNode rib env kind eraseId cur n (w, log)).2.1.addrWatches := by
  unfold RouteWatcher.fireNode
  split_ifs with he
  · exact ⟨h, fun x hx _ => hx⟩
  · have h' : IdsInv w (n.id :: held) prox := h.subset fun p hp => List.mem_append_right _ hp
    obtain ⟨hinv, hfalse, hkeep⟩ := h.callNode rib env kind n.lastKnown cur log
      (ha (by simpa [Differs] using he)) fun p hp => ne_of_proxy h' hids hp
    simp only
    split_ifs with hr
    · refine ⟨hinv.pushId.of_sameIds (hE _ _), fun x hx hxs => ?_⟩
      rw [(hE _ _).addrWatches]; exact hkeep x hx hxs
    · exact ⟨hfalse (by simpa using hr), hkeep⟩

/-- The body of the loop of `fireNodes`, on one node of the table. -/
def fireStep (eraseId : ℕ → RouteWatcher W → RouteWatcher W) (fire : κ → Bool)
    (getCur : WatchNode W → Option (Ptr W)) (x : κ × WatchNode W) (s : Log W) :
    Option (WatchNode W) × Log W :=
  if fire x.1 then
    if x.2.canceled then (none, s) else fireNode rib env kind eraseId (getCur x.2) x.2 s
  else (some x.2, s)

theorem fireNodes_cons (fire : κ → Bool) (getCur : WatchNode W → Option (Ptr W))
    (x : κ × WatchNode W) (xs : List (κ × WatchNode W)) (s : Log W) :
    fireNodes rib env kind eraseId fire getCur (x :: xs) s =
      (((fireStep rib env kind eraseId fire getCur x s).1.map fun n => (x.1, n)).toList ++
        (fireNodes rib env kind eraseId fire getCur xs
          (fireStep rib env kind eraseId fire getCur x s).2).1,
       (fireNodes rib env kind eraseId fire getCur xs
          (fireStep rib env kind eraseId fire getCur x s).2).2) := by
  obtain ⟨k, n⟩ := x
  rw [RouteWatcher.fireNodes]
  simp only [fireStep]
  split_ifs <;> rfl

/-- The loop before the nodes `xs`, with the nodes passed in `held` and `prox`: no id is
    in two places, and the proxies that it will call have a state. -/
structure Firing (fire : κ → Bool) (getCur : WatchNode W → Option (Ptr W)) (w : RouteWatcher W)
    (xs : List (κ × WatchNode W)) (held : List ℕ) (prox : List (ℕ × ℕ)) : Prop where
  ids : IdsInv w (liveIds xs ++ held) (proxies xs ++ prox)
  passed : ∀ p ∈ prox, p.1 ∈ held
  alive : ∀ x ∈ xs, fire x.1 = true → x.2.canceled = false →
    Differs rib env x.2 (getCur x.2) → ∀ p ∈ proxyOf x.2, StateAlive w p.2

/-- One node: what is left of it joins the nodes passed, and the address watches of
    other states stay. -/
theorem Firing.step (hE : ∀ id w, SameIds w (eraseId id w)) {fire : κ → Bool}
    {getCur : WatchNode W → Option (Ptr W)} {k : κ} {n : WatchNode W}
    {xs : List (κ × WatchNode W)} (log : List (Invocation W))
    (h : Firing rib env fire getCur w ((k, n) :: xs) held prox) :
    Firing rib env fire getCur (fireStep rib env kind eraseId fire getCur (k, n) (w, log)).2.1 xs
      (liveIds ((fireStep rib env kind eraseId fire getCur (k, n) (w, log)).1.map
        fun n' => (k, n')).toList ++ held)
      (proxies ((fireStep rib env kind eraseId fire getCur (k, n) (w, log)).1.map
        fun n' => (k, n')).toList ++ prox) ∧
      ∀ x ∈ w.addrWatches, (∀ p ∈ proxies [(k, n)], x.2.state ≠ p.2) →
        x ∈ (fireStep rib env kind eraseId fire getCur (k, n) (w, log)).2.1.addrWatches := by
  have ha' := fun y (hy : y ∈ xs) => h.alive y (List.mem_cons_of_mem _ hy)
  cases hc : n.canceled with
  | true =>
    have hids := h.ids
    rw [liveIds_cons_canceled hc, proxies_cons_canceled hc] at hids
    simp only [fireStep, hc, if_true]
    split_ifs
    · exact ⟨⟨hids, h.passed, ha'⟩, fun x hx _ => hx⟩
    · simp only [Option.map_some, Option.toList_some, liveIds_cons_canceled hc,
        proxies_cons_canceled hc]
      exact ⟨⟨hids, h.passed, ha'⟩, fun x hx _ => hx⟩
  | false =>
    have hids := h.ids
    rw [liveIds_cons_live hc, proxies_cons_live hc, List.append_assoc] at hids
    have hreg := registered h.passed xs
    simp only [fireStep, hc, Bool.false_eq_true, if_false]
    split_ifs with hk
    · obtain ⟨hinv, hkeep⟩ := IdsInv.fireNode rib env kind hE (getCur n) log hids hreg
        (h.alive _ List.mem_cons_self hk hc)
      have hleft : ∀ n' ∈ (fireNode rib env kind eraseId (getCur n) n (w, log)).1,
          n'.canceled = false := by
        intro n' hn'
        rw [(fireNode_node rib env kind (getCur n) n (w, log) n' hn').2.2]; exact hc
      refine ⟨⟨?_, registered h.passed _, fun x hx hf hxc hd p hp => ?_⟩, fun x hx hxs => hkeep x hx ?_⟩
      · rw [liveIds_option hleft, proxies_option hleft]
        exact hinv.swap
      · -- no later node is the proxy of the same state
        have hal := ha' x hx hf hxc hd p hp
        refine hal.keep (fun q hq => ?_) hkeep
        exact state_ne_of_proxy hids hreg (List.mem_append_left _ (mem_proxies hx hxc hp)) hq hal
      · intro p hp
        exact hxs p (mem_proxies List.mem_cons_self hc hp)
    · have hn : ∀ n' ∈ some n, n'.canceled = false := by rintro n' ⟨⟩; exact hc
      refine ⟨⟨?_, registered h.passed _, ha'⟩, fun x hx _ => hx⟩
      rw [liveIds_option hn, proxies_option hn]
      exact hids.swap

/-- The loop: the nodes that stay keep their ids, the others have given theirs back, and
    the address watches without a proxy among the nodes stay. -/
theorem Firing.fireNodes (hE : ∀ id w, SameIds w (eraseId id w)) {fire : κ → Bool}
    {getCur : WatchNode W → Option (Ptr W)} {xs : List (κ × WatchNode W)}
    (log : List (Invocation W)) (h : Firing rib env fire getCur w xs held prox) :
    IdsInv (fireNodes rib env kind eraseId fire getCur xs (w, log)).2.1
      (liveIds (fireNodes rib env kind eraseId fire getCur xs (w, log)).1 ++ held)
      (proxies (fireNodes rib env kind eraseId fire getCur xs (w, log)).1 ++ prox) ∧
      ∀ x ∈ w.addrWatches, (∀ p ∈ proxies xs, x.2.state ≠ p.2) →
        x ∈ (fireNodes rib env kind eraseId fire getCur xs (w, log)).2.1.addrWatches := by
  induction xs generalizing w log held prox with
  | nil => exact ⟨h.ids, fun x hx _ => hx⟩
  | cons x xs ih =>
    obtain ⟨k, n⟩ := x
    obtain ⟨hstep, hkeep⟩ := h.step rib env kind hE log
    obtain ⟨hinv, hkeep'⟩ := ih _ hstep
    rw [fireNodes_cons]
    refine ⟨?_, fun x hx hxs => ?_⟩
    · simp only [liveIds_append, proxies_append, List.append_assoc]
      exact hinv.swap
    · have hsplit : ∀ p, p ∈ proxies [(k, n)] ∨ p ∈ proxies xs → p ∈ proxies ((k, n) :: xs) := by
        intro p hp
        rw [← List.singleton_append, proxies_append]; exact List.mem_append.2 hp
      exact hkeep' x (hkeep x hx fun p hp => hxs p (hsplit p (Or.inl hp)))
        fun p hp => hxs p (hsplit p (Or.inr hp))

theorem fireNodes_mem (fire : κ → Bool) (getCur : WatchNode W → Option (Ptr W))
    {xs : List (κ × WatchNode W)} {s : Log W} {y : κ × WatchNode W}
    (hy : y ∈ (fireNodes rib env kind eraseId fire getCur xs s).1) :
    ∃ x ∈ xs, y.1 = x.1 ∧ y.2.id = x.2.id ∧ y.2.fn = x.2.fn ∧ y.2.canceled = x.2.canceled := by
  induction xs generalizing s with
  | nil => cases hy
  | cons x xs ih =>
    obtain ⟨k, n⟩ := x
    have hlater : ∀ {s' : Log W}, y ∈ (RouteWatcher.fireNodes rib env kind eraseId fire getCur xs s').1 →
        ∃ x ∈ (k, n) :: xs, y.1 = x.1 ∧ y.2.id = x.2.id ∧ y.2.fn = x.2.fn ∧
          y.2.canceled = x.2.canceled := by
      intro s' hm
      obtain ⟨x, hx, hxy⟩ := ih hm
      exact ⟨x, List.mem_cons_of_mem _ hx, hxy⟩
    rw [RouteWatcher.fireNodes] at hy
    split_ifs at hy
    · exact hlater hy
    · rcases List.mem_append.1 hy with hm | hm
      · obtain ⟨n', hn', rfl⟩ := Option.map_eq_some_iff.1 (Option.mem_toList.1 hm)
        exact ⟨(k, n), List.mem_cons_self, rfl, fireNode_node rib env kind (getCur n) n s n' hn'⟩
      · exact hlater hm
    · rcases List.mem_cons.1 hy with rfl | hm
      · exact ⟨(k, n), List.mem_cons_self, rfl, rfl, rfl, rfl⟩
      · exact hlater hm

/-! ## The id maps -/

/-- An entry of the id map stands for a node that is not canceled. -/
def MapSound (m : List (ℕ × κ)) (t : List (κ × WatchNode W)) : Prop :=
  ∀ e ∈ m, ∃ x ∈ t, x.1 = e.2 ∧ x.2.id = e.1 ∧ x.2.canceled = false

theorem fireNodes_map {f : RouteWatcher W → List (ℕ × κ)}
    (hf : ∀ w w', SameTables w w' → f w' = f w) (hfE : ∀ id w, f (eraseId id w) = eraseKey id (f w))
    (fire : κ → Bool) (getCur : WatchNode W → Option (Ptr W)) (xs : List (κ × WatchNode W))
    (s : Log W) : (∀ e ∈ f (fireNodes rib env kind eraseId fire getCur xs s).2.1, e ∈ f s.1) ∧
      ∀ x ∈ xs, x.2.canceled = false →
        (∃ y ∈ (fireNodes rib env kind eraseId fire getCur xs s).1,
          y.1 = x.1 ∧ y.2.id = x.2.id ∧ y.2.canceled = false) ∨
        ∀ e ∈ f (fireNodes rib env kind eraseId fire getCur xs s).2.1, e.1 ≠ x.2.id := by
  induction xs generalizing s with
  | nil => exact ⟨fun e he => he, fun x hx => absurd hx List.not_mem_nil⟩
  | cons x xs ih =>
    obtain ⟨k, n⟩ := x
    rw [RouteWatcher.fireNodes]
    split_ifs with hk hc
    · refine ⟨(ih s).1, fun x hx hxc => ?_⟩
      rcases List.mem_cons.1 hx with rfl | hx
      · exact absurd hxc (by simp [hc])
      · exact (ih s).2 x hx hxc
    · -- the node is fired
      have hstep : (∃ n', (fireNode rib env kind eraseId (getCur n) n s).1 = some n' ∧
            n'.id = n.id ∧ n'.canceled = false ∧
            f (fireNode rib env kind eraseId (getCur n) n s).2.1 = f s.1) ∨
          ((fireNode rib env kind eraseId (getCur n) n s).1 = none ∧
            f (fireNode rib env kind eraseId (getCur n) n s).2.1 = eraseKey n.id (f s.1)) := by
        unfold RouteWatcher.fireNode
        split_ifs
        · exact Or.inl ⟨n, rfl, rfl, by simpa using hc, rfl⟩
        · have hcall := hf _ _ (SameTables.callNode rib env kind n n.lastKnown (getCur n) s)
          simp only
          split_ifs
          · refine Or.inr ⟨rfl, ?_⟩
            rw [hfE, ← hcall]
            exact congrArg _ (hf _ _ (SameTables.pushId _ _))
          · exact Or.inl ⟨_, rfl, rfl, by simpa using hc, hcall⟩
      obtain ⟨hsub, hlive⟩ := ih (fireNode rib env kind eraseId (getCur n) n s).2
      simp only
      rcases hstep with ⟨n', hn', hid, hnc, hm⟩ | ⟨hn', hm⟩
      · rw [hm] at hsub
        refine ⟨hsub, fun x hx hxc => ?_⟩
        rcases List.mem_cons.1 hx with rfl | hx
        · refine Or.inl ⟨(k, n'), List.mem_append_left _ (by simp [hn']), rfl, hid, hnc⟩
        · refine (hlive x hx hxc).imp_left ?_
          rintro ⟨y, hy, hyx⟩
          exact ⟨y, List.mem_append_right _ hy, hyx⟩
      · rw [hm] at hsub
        refine ⟨fun e he => List.mem_of_mem_filter (hsub e he), fun x hx hxc => ?_⟩
        rcases List.mem_cons.1 hx with rfl | hx
        · exact Or.inr fun e he => by simpa using (List.mem_filter.1 (hsub e he)).2
        · refine (hlive x hx hxc).imp_left ?_
          rintro ⟨y, hy, hyx⟩
          exact ⟨y, List.mem_append_right _ hy, hyx⟩
    · refine ⟨(ih s).1, fun x hx hxc => ?_⟩
      rcases List.mem_cons.1 hx with rfl | hx
      · exact Or.inl ⟨_, List.mem_cons_self, rfl, rfl, hxc⟩
      · refine ((ih s).2 x hx hxc).imp_left ?_
        rintro ⟨y, hy, hyx⟩
        exact ⟨y, List.mem_cons_of_mem _ hy, hyx⟩

theorem MapSound.fireNodes {f : RouteWatcher W → List (ℕ × κ)}
    (hf : ∀ w w', SameTables w w' → f w' = f w) (hfE : ∀ id w, f (eraseId id w) = eraseKey id (f w))
    (fire : κ → Bool) (getCur : WatchNode W → Option (Ptr W)) {xs : List (κ × WatchNode W)}
    (s : Log W) (h : MapSound (f s.1) xs) :
    MapSound (f (fireNodes rib env kind eraseId fire getCur xs s).2.1)
      (fireNodes rib env kind eraseId fire getCur xs s).1 := by
  obtain ⟨hsub, hlive⟩ := fireNodes_map rib env kind hf hfE fire getCur xs s
  intro e he
  obtain ⟨x, hx, hxk, hxid, hxc⟩ := h e (hsub e he)
  rcases hlive x hx hxc with ⟨y, hy, hyk, hyid, hyc⟩ | hne
  · exact ⟨y, hy, hyk.trans hxk, hyid.trans hxid, hyc⟩
  · exact absurd hxid.symm (hne e he)

end

/-! ## The invariant of the watcher -/

/-- The ids are apart, the id maps are sound, and no node of the protocol table is a
    proxy. -/
structure WatchInv (w : RouteWatcher W) : Prop where
  ids : IdsInv w (liveIds w.prefixWatchTable ++ liveIds w.protocolWatchTable)
    (proxies w.prefixWatchTable)
  prefixMap : MapSound w.prefixIdMap w.prefixWatchTable
  protocolMap : MapSound w.protocolIdMap w.protocolWatchTable
  users : ∀ x ∈ w.protocolWatchTable, proxyOf x.2 = none

section
variable {w : RouteWatcher W} (rib : Rib W) (env : Env W) (log : List (Invocation W))

theorem sameIds_erasePrefixId (id : ℕ) (w : RouteWatcher W) : SameIds w (erasePrefixId id w) :=
  ⟨rfl, rfl, rfl, rfl, rfl⟩

theorem sameIds_eraseProtocolId (id : ℕ) (w : RouteWatcher W) : SameIds w (eraseProtocolId id w) :=
  ⟨rfl, rfl, rfl, rfl, rfl⟩

theorem proxies_users {t : List (κ × WatchNode W)} (h : ∀ x ∈ t, proxyOf x.2 = none) :
    proxies t = [] := by
  rw [proxies, List.filterMap_eq_nil_iff]
  intro x hx
  rw [h x hx, ite_self]

theorem WatchInv.firingPrefix (h : WatchInv w) {k : PrefixKey W}
    {getCur : WatchNode W → Option (Ptr W)}
    (ha : ∀ x ∈ w.prefixWatchTable, x.1 = k → x.2.canceled = false →
      Differs rib env x.2 (getCur x.2) → ∀ p ∈ proxyOf x.2, StateAlive w p.2) :
    Firing rib env (· = k) getCur w w.prefixWatchTable (liveIds w.protocolWatchTable) [] := by
  refine ⟨?_, fun p hp => absurd hp List.not_mem_nil, fun x hx hk => ha x hx (by simpa using hk)⟩
  rw [List.append_nil]; exact h.ids

theorem WatchInv.firingProtocol (h : WatchInv w) (fire : SrcPid → Bool) (cur : Option (Ptr W)) :
    Firing rib env fire (fun _ => cur) w w.protocolWatchTable (liveIds w.prefixWatchTable)
      (proxies w.prefixWatchTable) := by
  refine ⟨?_, fun p hp => mem_liveIds_of_proxy hp, fun x hx _ _ _ p hp => ?_⟩
  · rw [proxies_users h.users, List.nil_append]
    exact h.ids.perm List.perm_append_comm
  · rw [h.users x hx] at hp; cases hp

theorem WatchInv.firePrefix (h : WatchInv w) {k : PrefixKey W}
    {getCur : WatchNode W → Option (Ptr W)}
    (ha : ∀ x ∈ w.prefixWatchTable, x.1 = k → x.2.canceled = false →
      Differs rib env x.2 (getCur x.2) → ∀ p ∈ proxyOf x.2, StateAlive w p.2) :
    WatchInv (firePrefix rib env k getCur (w, log)).1 := by
  have ht := fireNodes_frame rib env .route (fun _ _ h => SameTables.protocolTable h)
    (fun id w => (rfl : (erasePrefixId id w).protocolWatchTable = _)) (· = k) getCur
    w.prefixWatchTable (w, log)
  have hm := fireNodes_frame rib env .route (fun _ _ h => SameTables.protocolIds h)
    (fun id w => (rfl : (erasePrefixId id w).protocolIdMap = _)) (· = k) getCur
    w.prefixWatchTable (w, log)
  have hinv := ((h.firingPrefix rib env ha).fireNodes rib env .route sameIds_erasePrefixId log).1
  rw [List.append_nil] at hinv
  refine ⟨?_, ?_, ?_, ?_⟩
  · simp only [RouteWatcher.firePrefix, ht]
    exact hinv.of_sameIds ⟨rfl, rfl, rfl, rfl, rfl⟩
  · exact MapSound.fireNodes rib env .route (fun _ _ h => SameTables.prefixIds h)
      (fun _ _ => rfl) (· = k) getCur (w, log) h.prefixMap
  · simp only [RouteWatcher.firePrefix, ht, hm]; exact h.protocolMap
  · simp only [RouteWatcher.firePrefix, ht]; exact h.users

theorem WatchInv.fireProtocol (h : WatchInv w) (fire : SrcPid → Bool) (cur : Option (Ptr W)) :
    WatchInv (fireProtocol rib env fire cur (w, log)).1 := by
  have ht := fireNodes_frame rib env .protocol (fun _ _ h => SameTables.prefixTable h)
    (fun id w => (rfl : (eraseProtocolId id w).prefixWatchTable = _)) fire (fun _ => cur)
    w.protocolWatchTable (w, log)
  have hm := fireNodes_frame rib env .protocol (fun _ _ h => SameTables.prefixIds h)
    (fun id w => (rfl : (eraseProtocolId id w).prefixIdMap = _)) fire (fun _ => cur)
    w.protocolWatchTable (w, log)
  have husers : ∀ x ∈ (fireNodes rib env .protocol eraseProtocolId fire (fun _ => cur)
      w.protocolWatchTable (w, log)).1, proxyOf x.2 = none := by
    intro x hx
    obtain ⟨y, hy, -, hid, hfn, -⟩ := fireNodes_mem rib env .protocol fire _ hx
    rw [proxyOf_congr hid hfn]; exact h.users y hy
  have hinv := ((h.firingProtocol rib env fire cur).fireNodes rib env .protocol
    sameIds_eraseProtocolId log).1
  rw [proxies_users husers, List.nil_append] at hinv
  refine ⟨?_, ?_, ?_, husers⟩
  · simp only [RouteWatcher.fireProtocol, ht]
    exact (hinv.perm List.perm_append_comm).of_sameIds ⟨rfl, rfl, rfl, rfl, rfl⟩
  · simp only [RouteWatcher.fireProtocol, ht, hm]; exact h.prefixMap
  · exact MapSound.fireNodes rib env .protocol (fun _ _ h => SameTables.protocolIds h)
      (fun _ _ => rfl) fire (fun _ => cur) (w, log) h.protocolMap

theorem WatchInv.announceProtocol (h : WatchInv w) (k : PrefixKey W) (b : RibBucket W) :
    WatchInv (announceProtocol rib env k b (w, log)).1 := by
  unfold RouteWatcher.announceProtocol
  split_ifs
  · exact h.fireProtocol rib env log _ _
  · cases b.prevBest <;> cases b.bestEntry <;> dsimp only
    · exact h
    · split_ifs
      · exact h
      · exact h.fireProtocol rib env log _ _
    · exact h.fireProtocol rib env log _ _
    · split_ifs
      · exact h.fireProtocol rib env log _ _
      · exact (h.fireProtocol rib env log _ _).fireProtocol rib env _ _ _

theorem WatchInv.announceRouteChange (h : WatchInv w) {k : PrefixKey W} {b : RibBucket W}
    (ha : ∀ x ∈ w.prefixWatchTable, x.1 = Rib.keyOf k.1 k.2 → x.2.canceled = false →
      b.bestEntry ≠ b.prevBest → Differs rib env x.2 (computeBestForPrefix k b x.2.filter) →
      ∀ p ∈ proxyOf x.2, StateAlive w p.2) :
    WatchInv (announceRouteChange rib env k b (w, log)).1 := by
  simp only [RouteWatcher.announceRouteChange]
  split_ifs with hne
  · exact WatchInv.announceProtocol rib env _
      (h.firePrefix rib env log fun x hx hk hc => ha x hx hk hc hne) k b
  · exact h.announceProtocol rib env log k b

/-! ## `announceAllGone` -/

theorem IdsInv.fireAll (kind : WatchKind) {held : List ℕ} {prox : List (ℕ × ℕ)}
    {xs : List (κ × WatchNode W)} (h : IdsInv w (liveIds xs ++ held) (proxies xs ++ prox))
    (hids : ∀ p ∈ prox, p.1 ∈ held) (hc : ∀ x ∈ xs, x.2.canceled = false)
    (ha : ∀ x ∈ xs, x.2.lastKnown ≠ none → ∀ p ∈ proxyOf x.2, StateAlive w p.2) :
    IdsInv (fireAll rib env kind xs (w, log)).1 held prox := by
  induction xs generalizing w log with
  | nil => exact h
  | cons x xs ih =>
    obtain ⟨k, n⟩ := x
    have hn : n.canceled = false := hc _ List.mem_cons_self
    have hc' := fun y (hy : y ∈ xs) => hc y (List.mem_cons_of_mem _ hy)
    have ha' := fun y (hy : y ∈ xs) => ha y (List.mem_cons_of_mem _ hy)
    rw [liveIds_cons_live hn, proxies_cons_live hn, List.append_assoc] at h
    have hids' := registered hids xs
    have h' : IdsInv w (n.id :: (liveIds xs ++ held)) (proxies xs ++ prox) :=
      h.subset fun p hp => List.mem_append_right _ hp
    simp only [RouteWatcher.fireAll]
    split_ifs with hk
    · exact ih log h'.pushId hc' ha'
    · have hk' : n.lastKnown ≠ none := by
        intro hnone
        exact hk (Or.inr (by rw [hnone]; rfl))
      obtain ⟨hinv, -, hkeep⟩ := h.pushId.callNode rib env kind n.lastKnown none log
        (ha _ List.mem_cons_self hk') fun p hp => ne_of_proxy h' hids' hp
      refine ih _ hinv hc' fun x hx hxk p hp => ?_
      have hal := ha' x hx hxk p hp
      refine hal.keep (fun q hq => ?_) hkeep
      exact state_ne_of_proxy h hids' (List.mem_append_left _ (mem_proxies hx (hc' x hx) hp)) hq hal

theorem SameTables.fireAll (kind : WatchKind) (xs : List (κ × WatchNode W)) (s : Log W) :
    SameTables s.1 (fireAll rib env kind xs s).1 := by
  induction xs generalizing s with
  | nil => exact SameTables.refl _
  | cons x xs ih =>
    obtain ⟨k, n⟩ := x
    simp only [RouteWatcher.fireAll]
    split_ifs
    · exact (SameTables.pushId _ _).trans (ih (s.1.pushId n.id, s.2))
    · refine SameTables.trans ?_ (ih _)
      exact (SameTables.pushId _ _).trans
        (SameTables.callNode rib env kind n n.lastKnown none (s.1.pushId n.id, s.2))

theorem SameTables.fireAddrs (xs : List (ℕ × AddrWatchState W)) (s : Log W) :
    SameTables s.1 (fireAddrs rib env xs s).1 := by
  induction xs generalizing s with
  | nil => exact SameTables.refl _
  | cons x xs ih =>
    obtain ⟨id, st⟩ := x
    simp only [RouteWatcher.fireAddrs]
    split_ifs
    · exact (SameTables.pushId _ _).trans (ih (s.1.pushId id, s.2))
    · refine SameTables.trans ?_ (ih _)
      exact (SameTables.pushId _ _).trans (SameTables.invoke rib env _ (s.1.pushId id, s.2))

theorem call_addrWatches (a : List (ℕ × AddrWatchState W)) (w : RouteWatcher W) (c : Call W) :
    call rib env { w with addrWatches := a } c = { call rib env w c with addrWatches := a } := by
  have hal : allocateId { w with addrWatches := a } =
      (w.allocateId.1, { w.allocateId.2 with addrWatches := a }) := by
    unfold RouteWatcher.allocateId
    split <;> simp_all
  cases c with
  | watchRoute => simp only [RouteWatcher.call, RouteWatcher.watchRoute, hal]; rfl
  | watchAddress =>
    simp only [RouteWatcher.call, hal]
    split_ifs <;> rfl
  | watchProtocol => simp only [RouteWatcher.call, hal]; rfl
  | remove => rfl
  | rib => rfl

theorem invoke_addrWatches (a : List (ℕ × AddrWatchState W)) (i : Invocation W) (w : RouteWatcher W) :
    (invoke rib env i ({ w with addrWatches := a }, log)).2 =
      ({ (invoke rib env i (w, log)).2.1 with addrWatches := a }, (invoke rib env i (w, log)).2.2) := by
  simp only [RouteWatcher.invoke, Prod.mk.injEq, and_true]
  induction (env.reply log.length i).2 generalizing w with
  | nil => rfl
  | cons c cs ih => rw [List.foldl_cons, call_addrWatches, ih]; rfl

theorem fireAddrs_addrWatches (a : List (ℕ × AddrWatchState W)) (xs : List (ℕ × AddrWatchState W))
    (w : RouteWatcher W) :
    (fireAddrs rib env xs ({ w with addrWatches := a }, log)).1 =
      { (fireAddrs rib env xs (w, log)).1 with addrWatches := a } := by
  induction xs generalizing w log with
  | nil => rfl
  | cons x xs ih =>
    obtain ⟨id, st⟩ := x
    simp only [RouteWatcher.fireAddrs]
    split_ifs
    · exact ih log (w.pushId id)
    · have hi := invoke_addrWatches rib env log a
        ⟨.address, st.userFn, st.userCtx, id, st.lastUserRoute, none⟩ (w.pushId id)
      refine Eq.trans (congrArg (fun s => (RouteWatcher.fireAddrs rib env xs s).1) hi) ?_
      exact ih _ _

theorem IdsInv.fireAddrs {held : List ℕ} {prox : List (ℕ × ℕ)} {xs : List (ℕ × AddrWatchState W)}
    (h : IdsInv w (xs.map Prod.fst ++ held) prox) :
    IdsInv (fireAddrs rib env xs (w, log)).1 held prox := by
  induction xs generalizing w log with
  | nil => exact h
  | cons x xs ih =>
    obtain ⟨id, st⟩ := x
    simp only [RouteWatcher.fireAddrs]
    split_ifs
    · exact ih log h.pushId
    · exact ih _ (h.pushId.invoke rib env _ log)

theorem IdsInv.dropAddrs {held : List ℕ} {prox : List (ℕ × ℕ)} (h : IdsInv w held prox) :
    IdsInv { w with addrWatches := [] } (w.addrWatches.map Prod.fst ++ held) prox := by
  have hall : (allIds { w with addrWatches := [] } (w.addrWatches.map Prod.fst ++ held)).Perm
      (allIds w held) := by
    simp only [allIds, List.map_nil, List.nil_append, List.append_assoc]
    refine List.Perm.append_left _ ?_
    rw [← List.append_assoc, ← List.append_assoc]
    exact List.Perm.append_right _ List.perm_append_comm
  refine ⟨hall.nodup_iff.2 h.nodup, fun i hi => h.bound i (hall.mem_iff.1 hi), ?_, List.nodup_nil,
    fun p hp => ⟨(h.pinned p hp).1, ?_⟩⟩
  · intro x hx; cases hx
  · intro x hx; cases hx

theorem WatchInv.announceAllGone (h : WatchInv w)
    (hp : ∀ x ∈ w.prefixWatchTable, x.2.canceled = false)
    (hq : ∀ x ∈ w.protocolWatchTable, x.2.canceled = false)
    (ha : ∀ x ∈ w.prefixWatchTable, x.2.lastKnown ≠ none → ∀ p ∈ proxyOf x.2, StateAlive w p.2) :
    WatchInv (announceAllGone rib env (w, log)).1 := by
  simp only [RouteWatcher.announceAllGone]
  have hids := h.ids
  rw [← List.append_nil (proxies w.prefixWatchTable)] at hids
  have h₁ := hids.fireAll rib env log .route (fun p hp => absurd hp List.not_mem_nil) hp ha
  have ht := (SameTables.fireAll rib env .route w.prefixWatchTable (w, log)).protocolTable
  revert h₁ ht
  generalize RouteWatcher.fireAll rib env .route w.prefixWatchTable (w, log) = s₁
  intro h₁ ht
  have h₁' : IdsInv { s₁.1 with prefixWatchTable := [], prefixIdMap := [] }
      (liveIds s₁.1.protocolWatchTable ++ []) (proxies s₁.1.protocolWatchTable ++ []) := by
    rw [ht, proxies_users h.users, List.append_nil]
    exact h₁.of_sameIds ⟨rfl, rfl, rfl, rfl, rfl⟩
  have h₂ := h₁'.fireAll rib env s₁.2 .protocol (fun p hp => absurd hp List.not_mem_nil)
    (by rw [ht]; exact hq) fun x hx _ p hp => by
      rw [ht] at hx; rw [h.users x hx] at hp; cases hp
  have ht₂ := SameTables.fireAll rib env .protocol s₁.1.protocolWatchTable
    ({ s₁.1 with prefixWatchTable := [], prefixIdMap := [] }, s₁.2)
  revert h₂ ht₂
  generalize RouteWatcher.fireAll rib env .protocol s₁.1.protocolWatchTable
    ({ s₁.1 with prefixWatchTable := [], prefixIdMap := [] }, s₁.2) = s₂
  intro h₂ ht₂
  have h₂' : IdsInv { s₂.1 with protocolWatchTable := [], protocolIdMap := [] } [] [] :=
    h₂.of_sameIds ⟨rfl, rfl, rfl, rfl, rfl⟩
  have h₃ := h₂'.dropAddrs.fireAddrs rib env s₂.2
  rw [fireAddrs_addrWatches] at h₃
  have ht₃ := SameTables.fireAddrs rib env s₂.1.addrWatches
    ({ s₂.1 with protocolWatchTable := [], protocolIdMap := [] }, s₂.2)
  have hpt := ht₃.prefixTable.trans ht₂.prefixTable
  have hpm := ht₃.prefixIds.trans ht₂.prefixIds
  refine ⟨?_, ?_, ?_, ?_⟩
  · simp only [hpt, ht₃.protocolTable]
    exact h₃.of_sameIds ⟨rfl, rfl, rfl, rfl, rfl⟩
  · simp only [hpm]; intro e he; cases he
  · simp only [ht₃.protocolIds]; intro e he; cases he
  · simp only [ht₃.protocolTable]; intro x hx; cases hx

end

/-! ## Tasks -/

section
variable [DecidableEq κ] {k : κ} {id : ℕ} {t : List (κ × WatchNode W)}

theorem liveIds_markCanceled (hx : ∃ x ∈ t, x.1 = k ∧ x.2.id = id) (h : firstLive k id t) :
    (liveIds t).Perm (id :: liveIds (markCanceled k id t)) := by
  induction t with
  | nil => obtain ⟨x, hx, -⟩ := hx; cases hx
  | cons y t ih =>
    obtain ⟨k', n⟩ := y
    rw [markCanceled]
    split_ifs with hy
    · have hn : n.canceled = false := by
        refine h (k', n) ?_
        rw [Option.mem_def, List.find?_cons_of_pos (by simpa using hy)]
      rw [liveIds_cons_live hn, liveIds_cons_canceled (show WatchNode.canceled _ = true from rfl), hy.2]
    · have hx' : ∃ x ∈ t, x.1 = k ∧ x.2.id = id := by
        obtain ⟨x, hm, hk⟩ := hx
        rcases List.mem_cons.1 hm with rfl | hm
        · exact absurd hk hy
        · exact ⟨x, hm, hk⟩
      have h' : firstLive k id t := by
        intro x hxf
        refine h x ?_
        rw [Option.mem_def, List.find?_cons_of_neg (by simpa using hy)]
        exact hxf
      cases hn : n.canceled with
      | true => rw [liveIds_cons_canceled hn, liveIds_cons_canceled hn]; exact ih hx' h'
      | false =>
        rw [liveIds_cons_live hn, liveIds_cons_live hn]
        exact ((ih hx' h').cons _).trans (List.Perm.swap _ _ _)

theorem mem_markCanceled {y : κ × WatchNode W} (hy : y ∈ markCanceled k id t) :
    y ∈ t ∨ ∃ x ∈ t, x.2.id = id ∧ y.2 = { x.2 with canceled := true } := by
  induction t with
  | nil => cases hy
  | cons x t ih =>
    rw [markCanceled] at hy
    split_ifs at hy with hx
    · rcases List.mem_cons.1 hy with rfl | hy
      · exact Or.inr ⟨x, List.mem_cons_self, hx.2, rfl⟩
      · exact Or.inl (List.mem_cons_of_mem _ hy)
    · rcases List.mem_cons.1 hy with rfl | hy
      · exact Or.inl List.mem_cons_self
      · refine (ih hy).imp (fun h => List.mem_cons_of_mem _ h) ?_
        rintro ⟨z, hz, hzy⟩
        exact ⟨z, List.mem_cons_of_mem _ hz, hzy⟩

theorem mem_markCanceled_of_ne {y : κ × WatchNode W} (hy : y ∈ t) (hid : y.2.id ≠ id) :
    y ∈ markCanceled k id t := by
  induction t with
  | nil => cases hy
  | cons x t ih =>
    rw [markCanceled]
    split_ifs with hx
    · rcases List.mem_cons.1 hy with rfl | hy
      · exact absurd hx.2 hid
      · exact List.mem_cons_of_mem _ hy
    · rcases List.mem_cons.1 hy with rfl | hy
      · exact List.mem_cons_self
      · exact List.mem_cons_of_mem _ (ih hy)

theorem proxies_markCanceled {p : ℕ × ℕ} (hp : p ∈ proxies (markCanceled k id t)) :
    p ∈ proxies t := by
  obtain ⟨y, hy, hyp⟩ := List.mem_filterMap.1 hp
  rcases mem_markCanceled hy with hy | ⟨x, -, -, hyx⟩
  · exact List.mem_filterMap.2 ⟨y, hy, hyp⟩
  · rw [hyx] at hyp; cases hyp

theorem MapSound.markCanceled {m : List (ℕ × κ)} (h : MapSound m t) :
    MapSound (eraseKey id m) (markCanceled k id t) := by
  intro e he
  obtain ⟨hm, hne⟩ := List.mem_filter.1 he
  obtain ⟨x, hx, hxk, hxid, hxc⟩ := h e hm
  refine ⟨x, mem_markCanceled_of_ne hx ?_, hxk, hxid, hxc⟩
  rw [hxid]; simpa using hne

theorem perm_pushNode (n : WatchNode W) : (pushNode k n t).Perm ((k, n) :: t) := by
  induction t with
  | nil => exact List.Perm.refl _
  | cons x t ih =>
    rw [pushNode]
    split_ifs
    · exact List.Perm.swap _ _ _
    · exact (ih.cons _).trans (List.Perm.swap _ _ _)

theorem MapSound.pushNode {m : List (ℕ × κ)} (h : MapSound m t) (n : WatchNode W)
    (hn : n.canceled = false) : MapSound (emplace n.id k m) (pushNode k n t) := by
  intro e he
  have hold : e ∈ m ∨ e = (n.id, k) := by
    unfold emplace at he
    split_ifs at he
    · exact Or.inl he
    · simpa using he
  rcases hold with hm | rfl
  · obtain ⟨x, hx, hxe⟩ := h e hm
    exact ⟨x, (perm_pushNode n).mem_iff.2 (List.mem_cons_of_mem _ hx), hxe⟩
  · exact ⟨(k, n), (perm_pushNode n).mem_iff.2 List.mem_cons_self, rfl, rfl, hn⟩

theorem liveIds_pushNode {n : WatchNode W} (hn : n.canceled = false) :
    (liveIds (pushNode k n t)).Perm (n.id :: liveIds t) := by
  have hp := (perm_pushNode (k := k) (t := t) n).filterMap
    fun x => if x.2.canceled then none else some x.2.id
  exact hp.trans (List.Perm.of_eq (liveIds_cons_live hn))

theorem proxies_pushNode {n : WatchNode W} (hn : n.canceled = false) {p : ℕ × ℕ} :
    p ∈ proxies (pushNode k n t) ↔ p ∈ (proxyOf n).toList ++ proxies t := by
  rw [← proxies_cons_live (k := k) hn]
  exact ((perm_pushNode n).filterMap _).mem_iff

end

section
variable {w : RouteWatcher W} {id : ℕ}

theorem WatchInv.removeTask (h : WatchInv w) {rib : Rib W} {env : Env W}
    (hok : taskOk rib env w (.remove id)) : WatchInv (w.removeTask id) := by
  obtain ⟨hokp, hokq⟩ := hok
  unfold RouteWatcher.removeTask
  cases hp : w.prefixIdMap.find? fun x => x.1 = id with
  | some x =>
    simp only
    have hid : x.1 = id := by simpa using List.find?_some hp
    obtain ⟨y, hy, hyk, hyid, -⟩ := h.prefixMap x (List.mem_of_find?_eq_some hp)
    have hperm := liveIds_markCanceled ⟨y, hy, hyk, hyid.trans hid⟩ (hokp x hp)
    refine ⟨?_, h.prefixMap.markCanceled, h.protocolMap, h.users⟩
    have hsub : ∀ p ∈ proxies (markCanceled x.2 id w.prefixWatchTable),
        p ∈ proxies w.prefixWatchTable := fun p hp => proxies_markCanceled hp
    have hids := (h.ids.perm (List.Perm.append_right _ hperm)).subset hsub
    exact hids.pushId.of_sameIds ⟨rfl, rfl, rfl, rfl, rfl⟩
  | none =>
    simp only
    cases hq : w.protocolIdMap.find? fun x => x.1 = id with
    | some x =>
      simp only
      have hid : x.1 = id := by simpa using List.find?_some hq
      obtain ⟨y, hy, hyk, hyid, -⟩ := h.protocolMap x (List.mem_of_find?_eq_some hq)
      have hperm := liveIds_markCanceled ⟨y, hy, hyk, hyid.trans hid⟩ (hokq x hq)
      refine ⟨?_, h.prefixMap, h.protocolMap.markCanceled, fun z hz => ?_⟩
      · have hids := h.ids.perm ((List.Perm.append_left _ hperm).trans List.perm_middle)
        exact hids.pushId.of_sameIds ⟨rfl, rfl, rfl, rfl, rfl⟩
      · rcases mem_markCanceled hz with hz | ⟨x, hx, -, hzx⟩
        · exact h.users z hz
        · rw [hzx]; exact h.users x hx
    | none =>
      simp only
      cases ha : w.addrWatches.find? fun x => x.1 = id with
      | none => exact h
      | some x =>
        simp only
        have hid : x.1 = id := by simpa using List.find?_some ha
        have hmem : id ∈ w.addrWatches.map Prod.fst := by
          rw [← hid]; exact List.mem_map_of_mem (List.mem_of_find?_eq_some ha)
        split_ifs
        · refine ⟨?_, h.prefixMap, h.protocolMap, h.users⟩
          have hpost := h.ids.post_none (t := .remove x.2.prefixId) rfl
          exact (hpost.eraseAddr hmem).pushId
        · exact ⟨(h.ids.eraseAddr hmem).pushId, h.prefixMap, h.protocolMap, h.users⟩

theorem IdsInv.emplaceAddr {held : List ℕ} {prox : List (ℕ × ℕ)} (h : IdsInv w (id :: held) prox)
    {st : AddrWatchState W} (hid : st.addrId = id) (hst : st.state = w.nextState) :
    IdsInv { w with addrWatches := w.addrWatches ++ [(id, st)], nextState := w.nextState + 1 }
      held prox := by
  have hall : (allIds { w with addrWatches := w.addrWatches ++ [(id, st)]
                               nextState := w.nextState + 1 } held).Perm (allIds w (id :: held)) := by
    simp only [allIds, List.map_append, List.map_cons, List.map_nil, List.cons_append,
      List.append_assoc, List.nil_append]
    refine List.Perm.append_left _ ?_
    rw [← List.append_assoc, ← List.append_assoc]
    exact List.perm_middle
  have hmem : ∀ x ∈ w.addrWatches ++ [(id, st)], x ∈ w.addrWatches ∨ x = (id, st) := by
    intro x hx; simpa using hx
  refine ⟨hall.nodup_iff.2 h.nodup, fun i hi => h.bound i (hall.mem_iff.1 hi), fun x hx => ?_, ?_,
    fun p hp => ⟨(h.pinned p hp).1.trans (Nat.lt_succ_self _), fun x hx hxs => ?_⟩⟩
  · rcases hmem x hx with hx | rfl
    · exact ⟨(h.addr x hx).1, (h.addr x hx).2.trans (Nat.lt_succ_self _)⟩
    · exact ⟨hid, by rw [hst]; exact Nat.lt_succ_self _⟩
  · rw [List.map_append, List.map_singleton, ← List.concat_eq_append]
    refine List.Nodup.concat (fun hm => ?_) h.states
    obtain ⟨x, hx, hxs⟩ := List.mem_map.1 hm
    have := (h.addr x hx).2
    rw [hxs, hst] at this
    exact lt_irrefl _ this
  · rcases hmem x hx with hx | rfl
    · exact (h.pinned p hp).2 x hx hxs
    · have := (h.pinned p hp).1
      rw [← hxs, hst] at this
      exact absurd this (lt_irrefl _)

theorem SameTables.addAddress (rib : Rib W) (env : Env W) (w : RouteWatcher W) (addr : BitVec W)
    (id fn ctx : ℕ) (filter : WatchFilter) :
    ∃ n, SameTables { w with nextState := n } (w.addAddress rib env addr id fn ctx filter) := by
  unfold RouteWatcher.addAddress
  split
  · exact ⟨w.nextState, rfl, rfl, rfl, rfl, rfl⟩
  · refine ⟨w.nextState + 1, SameTables.trans ?_ (SameTables.repin ..)⟩
    exact ⟨rfl, rfl, rfl, rfl, rfl⟩

theorem IdsInv.addAddress {held : List ℕ} {prox : List (ℕ × ℕ)} (h : IdsInv w (id :: held) prox)
    (rib : Rib W) (env : Env W) (addr : BitVec W) (fn ctx : ℕ) (filter : WatchFilter) :
    IdsInv (w.addAddress rib env addr id fn ctx filter) held prox := by
  unfold RouteWatcher.addAddress
  split
  · exact h.pushId
  · rename_i cur _
    have hid : id ∉ w.addrWatches.map Prod.fst := by
      intro hm
      have hnd := h.nodup
      rw [allIds, List.nodup_append, List.cons_append, List.nodup_cons] at hnd
      exact hnd.2.1.1 (List.mem_append_right _ (List.mem_append_left _ hm))
    have hno : ∀ x ∈ w.addrWatches, ¬ decide (x.1 = id) = true := by
      intro x hx hxid
      exact hid (List.mem_map.2 ⟨x, hx, by simpa using hxid⟩)
    have hem : ∀ st : AddrWatchState W, emplace id st w.addrWatches = w.addrWatches ++ [(id, st)] := by
      intro st
      rw [emplace, if_neg]
      rw [List.any_eq_true]
      rintro ⟨x, hx, hxid⟩
      exact hno x hx hxid
    have hf : ∀ st : AddrWatchState W,
        (w.addrWatches ++ [(id, st)]).find? (fun x => decide (x.1 = id)) = some (id, st) := by
      intro st
      rw [List.find?_append, List.find?_eq_none.2 hno]
      simp
    simp only [hem, hf, Option.map_some, Option.getD_some]
    refine IdsInv.repin (h.emplaceAddr rfl rfl) rib env cur (Nat.lt_succ_self _) fun p hp => ?_
    exact (h.pinned p hp).1.ne

/-- A task that is taken from the queue holds its id. -/
theorem IdsInv.pop {held : List ℕ} {prox : List (ℕ × ℕ)} {t : Task W} {ts : List (Task W)}
    (h : IdsInv w held prox) (hq : w.queue = t :: ts) :
    IdsInv { w with queue := ts } ((pendingId t).toList ++ held) (pendingProxies [t] ++ prox) := by
  have hcons : pendingIds (t :: ts) = (pendingId t).toList ++ pendingIds ts := by
    rw [pendingIds, List.filterMap_cons]
    cases pendingId t <;> rfl
  have hprox : pendingProxies (t :: ts) = pendingProxies [t] ++ pendingProxies ts := by
    rw [← List.singleton_append, pendingProxies, List.filterMap_append]; rfl
  have hall : (allIds { w with queue := ts } ((pendingId t).toList ++ held)).Perm (allIds w held) := by
    simp only [allIds, hq, hcons, List.append_assoc]
    refine List.Perm.append_left _ ?_
    have hcomm := @List.perm_append_comm ℕ (pendingId t).toList (held ++ w.addrWatches.map Prod.fst)
    simpa only [List.append_assoc] using hcomm.append_right (pendingIds ts)
  refine ⟨hall.nodup_iff.2 h.nodup, fun i hi => h.bound i (hall.mem_iff.1 hi), h.addr, h.states,
    fun p hp => h.pinned p ?_⟩
  rw [hq, hprox]
  simp only [List.mem_append] at hp ⊢
  tauto

end

end RouteWatcher

/-! ## Runs -/

namespace RibSystem
variable {W : ℕ}
open RouteWatcher

def idsOk (s : RibSystem W) : Event W → Prop
  | .call _ _ => True
  | .exec env => ∀ t ∈ s.watcher.queue.head?, taskOk s.rib env s.watcher t

instance (s : RibSystem W) (e : Event W) : Decidable (idsOk s e) :=
  match e with
  | .call _ _ => inferInstanceAs (Decidable True)
  | .exec env => inferInstanceAs (Decidable (∀ t ∈ s.watcher.queue.head?, taskOk s.rib env s.watcher t))

theorem watchInv_execOp {rib : Rib W} {env : Env W} {w : RouteWatcher W} {op : Rib.Op W}
    (h : WatchInv w) (hok : taskOk rib env w (.rib op)) : WatchInv (execOp rib env w op).2.1 := by
  obtain ⟨ha, hc⟩ := hok
  cases op with
  | clear =>
    obtain ⟨hp, hq⟩ := hc rfl
    exact h.announceAllGone _ env [] hp hq fun x hx hk => ha x hx (hp x hx) hk
  | install e =>
    simp only [execOp, opKey]
    cases hb : announced rib (.install e) with
    | none => exact h
    | some b =>
      refine h.announceRouteChange _ env [] fun x hx hk hxc hne hd => ha x hx hxc ?_
      rw [Rib.keyOf_keyOf] at hk
      exact ⟨congrArg some hk.symm, b, hb, hne, by rw [hk]; exact hd⟩
  | withdraw pfx length src pid =>
    simp only [execOp, opKey]
    cases hb : announced rib (.withdraw pfx length src pid) with
    | none => exact h
    | some b =>
      refine h.announceRouteChange _ env [] fun x hx hk hxc hne hd => ha x hx hxc ?_
      rw [Rib.keyOf_keyOf] at hk
      exact ⟨congrArg some hk.symm, b, hb, hne, by rw [hk]; exact hd⟩

theorem watchInv_execTask {rib : Rib W} {env : Env W} {w : RouteWatcher W} {t : Task W}
    (hids : IdsInv w
      ((pendingId t).toList ++ (liveIds w.prefixWatchTable ++ liveIds w.protocolWatchTable))
      (pendingProxies [t] ++ proxies w.prefixWatchTable))
    (hp : MapSound w.prefixIdMap w.prefixWatchTable)
    (hq : MapSound w.protocolIdMap w.protocolWatchTable)
    (hu : ∀ x ∈ w.protocolWatchTable, proxyOf x.2 = none) (hok : taskOk rib env w t) :
    WatchInv (execTask rib env w t).2.1 := by
  cases t with
  | addPrefix k id fn filter =>
    refine ⟨IdsInv.of_sameIds (w := w) ?_ ⟨rfl, rfl, rfl, rfl, rfl⟩, hp.pushNode ⟨id, fn, filter, none, false⟩ rfl,
      hq, hu⟩
    have hperm := @liveIds_pushNode W _ _ k w.prefixWatchTable ⟨id, fn, filter, none, false⟩ rfl
    refine (hids.perm (List.Perm.append_right _ hperm).symm).subset fun p hmem => ?_
    rcases List.mem_append.1 ((proxies_pushNode rfl).1 hmem) with hmem | hmem
    · refine List.mem_append_left _ ?_
      cases fn with
      | user => cases hmem
      | addrWatch state => exact hmem
    · exact List.mem_append_right _ hmem
  | addAddress addr id fn ctx filter =>
    obtain ⟨n, ht⟩ := SameTables.addAddress rib env w addr id fn ctx filter
    refine ⟨?_, ?_, ?_, ?_⟩
    · simp only [execTask, ht.prefixTable, ht.protocolTable]
      exact hids.addAddress rib env addr fn ctx filter
    · simp only [execTask, ht.prefixTable, ht.prefixIds]; exact hp
    · simp only [execTask, ht.protocolTable, ht.protocolIds]; exact hq
    · simp only [execTask, ht.protocolTable]; exact hu
  | addProtocol sp id fn ctx =>
    refine ⟨IdsInv.of_sameIds (w := w) ?_ ⟨rfl, rfl, rfl, rfl, rfl⟩, hp,
      hq.pushNode ⟨id, .user fn ctx, {}, none, false⟩ rfl, ?_⟩
    · have hperm := @liveIds_pushNode W _ _ sp w.protocolWatchTable ⟨id, .user fn ctx, {}, none, false⟩ rfl
      exact hids.perm (((List.Perm.append_left _ hperm).trans List.perm_middle).symm)
    · intro x hx
      rcases List.mem_cons.1 ((perm_pushNode _).mem_iff.1 hx) with rfl | hx
      · rfl
      · exact hu x hx
  | remove id => exact WatchInv.removeTask ⟨hids, hp, hq, hu⟩ hok
  | rib op => exact watchInv_execOp ⟨hids, hp, hq, hu⟩ hok

theorem watchInv_step (s : RibSystem W) (e : Event W) (h : WatchInv s.watcher) (hok : idsOk s e) :
    WatchInv (s.step e).watcher := by
  cases e with
  | call c env =>
    have ht := SameTables.call s.rib env s.watcher c
    refine ⟨?_, ?_, ?_, ?_⟩
    · simp only [step, exec, ht.prefixTable, ht.protocolTable]
      exact h.ids.call s.rib env c
    · simp only [step, exec, ht.prefixTable, ht.prefixIds]; exact h.prefixMap
    · simp only [step, exec, ht.protocolTable, ht.protocolIds]; exact h.protocolMap
    · simp only [step, exec, ht.protocolTable]; exact h.users
  | exec env =>
    simp only [step, exec]
    cases hq : s.watcher.queue with
    | nil => exact h
    | cons t ts =>
      have hok' : taskOk s.rib env s.watcher t := hok t (by rw [hq]; rfl)
      refine watchInv_execTask (h.ids.pop hq) h.prefixMap h.protocolMap h.users ?_
      cases t <;> exact hok'

theorem watchInv_nil : WatchInv ({} : RouteWatcher W) := by
  refine ⟨⟨List.nodup_nil, ?_, ?_, List.nodup_nil, ?_⟩, ?_, ?_, ?_⟩
  all_goals intro x hx; cases hx

theorem idsUnique_of_inv {w : RouteWatcher W} (h : WatchInv w) : IdsUnique w := by
  have hnd := h.ids.nodup
  rw [allIds, List.nodup_append] at hnd
  obtain ⟨hav, -, hdis⟩ := hnd
  refine ⟨hav, fun id hid hu => hdis id hid id hu rfl, fun hu => ?_⟩
  cases hs : w.availableIds with
  | nil =>
    rw [allocateId_nil hs] at hu
    exact lt_irrefl _ (h.ids.bound _ (List.mem_append_right _ hu))
  | cons id ids =>
    rw [allocateId_cons hs] at hu
    exact hdis id (by rw [hs]; exact List.mem_cons_self) id hu rfl

/-- **Ids are unique** along every run of the tasks that keep them apart. -/
theorem idsUnique_run (es : List (Event W)) (h : Run.Along idsOk step ({} : RibSystem W) es) :
    IdsUnique (Run.runFrom step ({} : RibSystem W) es).watcher := by
  have hinv : WatchInv (Run.runFrom step ({} : RibSystem W) es).watcher :=
    Run.Along.invariant (I := fun s => WatchInv s.watcher) watchInv_step watchInv_nil h
  exact idsUnique_of_inv hinv

/-- An address watch is released, watches cancel themselves and are removed, and
    their ids are taken again. -/
theorem idsUnique_run_recycled : IdsUnique (Run.runFrom step ({} : RibSystem 32)
    [.call (.rib (.install ⟨0x0A000000, 8, .BGP, 1, 20, 0, 0, []⟩)) (.plain true),
     .exec (.plain true),
     .call (.watchAddress 0x0A000001 7 0 {}) (.plain true), .exec (.plain true), .exec (.plain true),
     .call (.rib (.install ⟨0x0A000000, 8, .STATIC, 0, 1, 0, 0, []⟩)) (.plain true),
     .exec (.plain true),
     .call (.watchRoute 0x0A000000 8 7 0 {}) (.plain true), .exec (.plain true),
     .call (.watchProtocol (.BGP, 1) 7 0) (.plain true), .exec (.plain true),
     .call (.rib (.withdraw 0x0A000000 8 .STATIC 0)) (.plain true), .exec (.plain true),
     .call (.watchProtocol (.BGP, 1) 7 0) (.plain true), .exec (.plain true),
     .call (.remove 1) (.plain true), .exec (.plain true)]).watcher :=
  idsUnique_run _ (by decide +kernel)

/-- The second `remove` marks the canceled node, and the node that took its id over
    stays in the table. -/
theorem not_idsUnique_recycled : ¬ IdsUnique (Run.runFrom step ({} : RibSystem 32)
    [.call (.watchRoute 0x0A000000 8 7 0 {}) (.plain false), .exec (.plain false),
     .call (.remove 1) (.plain false), .exec (.plain false),
     .call (.watchRoute 0x0A000000 8 8 0 {}) (.plain false), .exec (.plain false),
     .call (.remove 1) (.plain false), .exec (.plain false)]).watcher := by
  rintro ⟨-, hrec, -⟩
  exact hrec 1 (by decide +kernel) (by decide +kernel)

end RibSystem

end VirtualRouter
