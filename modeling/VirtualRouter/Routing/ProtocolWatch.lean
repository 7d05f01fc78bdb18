/-
  Protocol watches: the watches of a process are called on exactly those calls of
  the RIB that start, stop or change a best route of that process.

  The announcement fires the watches of the process that had the best route, found
  through the pointer to it, and those of the process that has it now; when the
  last route of a prefix goes, it fires all of them.  Which of the watches fired
  are called depends on the one route each of them remembers, of whatever prefix.
  `Noted` is a condition on the routes and the watch before the call under which
  this comes to the same: while the best route stays, its watch remembers it or an
  equal one; when it starts, stops or changes, the watch remembers something else;
  and the memory left behind the best route shows no other process.
-/
import VirtualRouter.Lib.Run
import VirtualRouter.Routing.RouteEdits

namespace VirtualRouter

/-! ## The best route of a process -/

section
variable {W : ℕ} {p : RibEntry W → Bool} {rs : List (RibEntry W)}

theorem bestSlot_of_pass {x : ℕ × RibEntry W} (h : bestSlot (fun _ => true) rs = some x)
    (hp : p x.2 = true) : bestSlot p rs = some x := by
  have hx := isBest_of_bestSlot h
  exact bestSlot_eq_some_iff.2 ⟨hx.slot, hp, fun j r hj _ => hx.min j r hj rfl,
    fun j r hlt hj _ => hx.first j r hlt hj rfl⟩

/-- The best route of a prefix, if the process `sp` contributes it. -/
def contributed (rib : Rib W) (k : PrefixKey W) (sp : SrcPid) : Option (RibEntry W) :=
  (bestOf rib k fun _ => true).filter fun r => r.srcPid = sp

theorem bestOf_of_contributed {rib : Rib W} {k : PrefixKey W} {sp : SrcPid} {r : RibEntry W}
    (h : contributed rib k sp = some r) : bestOf rib k (fun r => r.srcPid = sp) = some r := by
  obtain ⟨hb, hr⟩ := Option.filter_eq_some_iff.1 h
  obtain ⟨b, ht, hmap⟩ := Option.bind_eq_some_iff.1 hb
  obtain ⟨x, hx, rfl⟩ := Option.map_eq_some_iff.1 hmap
  rw [bestOf, ht, Option.bind_some, bestSlot_of_pass hx (by simpa using hr)]; rfl

end

namespace RibSystem
variable {W : ℕ}
open RouteWatcher

/-! ## What has to be reported -/

/-- The watches whose process gains, loses or changes the best route of `k`. -/
def protocolChanges (rib rib' : Rib W) (k : PrefixKey W) (t : List (SrcPid × WatchNode W)) :
    List (ℕ × ℕ × ℕ) :=
  t.filterMap fun x => match x.2.fn with
    | .user fn ctx => if x.2.canceled = false ∧
        routesEqual (contributed rib k x.1) (contributed rib' k x.1) = false then
          some (x.2.id, fn, ctx) else none
    | .addrWatch _ => none

def protocolCalls (s : RibSystem W) (e : Event W) : List (ℕ × ℕ × ℕ) :=
  (callsOf .protocol (s.calls e)).map fun i => (i.id, i.fn, i.ctx)

/-- **Protocol watches are sound and complete**: a call of the RIB on a prefix calls
    these watches, each once, and nothing else does.  (`clear` calls all.) -/
def ProtocolReported (s : RibSystem W) (e : Event W) : Prop :=
  match e, s.watcher.queue with
  | .exec _, .rib op :: _ => ∀ k ∈ opKey op, (protocolCalls s e).Perm
      (protocolChanges s.rib (s.step e).rib k s.watcher.protocolWatchTable)
  | _, _ => callsOf .protocol (s.calls e) = []

instance (s : RibSystem W) (e : Event W) : Decidable (ProtocolReported s e) := by
  unfold ProtocolReported
  generalize s.watcher.queue = q
  exact match e, q with
    | .exec _, .rib op :: _ => inferInstanceAs (Decidable (∀ _ ∈ opKey op, _))
    | .exec _, [] | .exec _, .addPrefix .. :: _ | .exec _, .addAddress .. :: _
    | .exec _, .addProtocol .. :: _ | .exec _, .remove _ :: _ | .call _ _, _ =>
      inferInstanceAs (Decidable (callsOf _ _ = []))

/-! ## When it is reported -/

section
variable (rib : Rib W) (env : Env W) (k : PrefixKey W) (b : RibBucket W) (n : WatchNode W)

/-- The watch remembers no route of `k`, and none that equals `r`. -/
def Unlike (r : RibEntry W) : Prop :=
  ∀ q ∈ n.lastKnown, q.key ≠ k ∧ routesEqual (some (read rib env q)) (some r) = false

/-- The watch remembers a route of another prefix that equals `r`. -/
def Alike (r : RibEntry W) : Prop :=
  ∃ q ∈ n.lastKnown, q.key ≠ k ∧ routesEqual (some (read rib env q)) (some r) = true

/-- The watch remembers the route in its slot, or an equal one. -/
def Holds (x : ℕ × RibEntry W) : Prop :=
  n.lastKnown = some (.route k (b.block, x.1)) ∨ Alike rib env k n x.2

instance (r : RibEntry W) : Decidable (Unlike rib env k n r) := by unfold Unlike; infer_instance
instance (r : RibEntry W) : Decidable (Alike rib env k n r) := by unfold Alike; infer_instance
instance (x : ℕ × RibEntry W) : Decidable (Holds rib env k b n x) := by unfold Holds; infer_instance

/-- The watch `n` of the process `sp` is called for what the edit changes. -/
def Noted (sp : SrcPid) : RouteEdit W → Prop
  | .first e => sp = e.srcPid → Unlike rib env k n e
  | .replace b i r e =>
    let leads := LeadsAt (fun _ => true) b.routes i
    if sp = e.srcPid then leads r ∨ leads e → Unlike rib env k n e
    else
      (∀ x ∈ bestSlot (fun _ => true) b.routes, sp = x.2.srcPid →
        if leads e then Unlike rib env k n x.2 else Holds rib env k b n x) ∧
      (leads r → ¬ leads e → ∀ x ∈ bestSlot (fun _ => true) (b.routes.set i e), sp = x.2.srcPid →
        Unlike rib env k n x.2)
  | .push b e =>
    let leads := LeadsAt (fun _ => true) b.routes b.routes.length e
    (sp = e.srcPid → leads → Unlike rib env k n e) ∧
      ∀ x ∈ bestSlot (fun _ => true) b.routes,
        (b.capacity ≤ b.routes.length → Lingers env k b x.1) ∧
        (sp = x.2.srcPid → if leads then Unlike rib env k n x.2 else Holds rib env k b n x)
  | .drop b i r =>
    if b.routes.length = 1 then n.lastKnown.isSome ↔ r.srcPid = sp
    else ∀ x ∈ bestSlot (fun _ => true) b.routes,
      -- the slot of the best route shows the one behind it, or is freed
      (i ≤ x.1 → x.1 + 1 = b.routes.length → Lingers env k b x.1) ∧
      (sp = x.2.srcPid → if x.1 = i then i + 1 = b.routes.length ∧ n.lastKnown.isSome
        else if x.1 < i ∨ x.1 + 1 = b.routes.length then Holds rib env k b n x
        else Alike rib env k n x.2) ∧
      (i ≤ x.1 → ∀ y ∈ b.routes[x.1 + 1]?, sp = y.srcPid →
        x.1 = i ∧ StepsUp (fun _ => true) b.routes i ∨ Alike rib env k n y) ∧
      (x.1 = i → ∀ y ∈ bestSlot (fun _ => true) (b.routes.eraseIdx i), sp = y.2.srcPid →
        Unlike rib env k n y.2)
  | .same b => ∀ x ∈ bestSlot (fun _ => true) b.routes, sp = x.2.srcPid → Holds rib env k b n x

instance (sp : SrcPid) : ∀ edit : RouteEdit W, Decidable (Noted rib env k n sp edit)
  | .first _ | .replace .. | .push .. | .drop .. | .same _ => by unfold Noted; infer_instance

end

/-- The condition on the execution of a call of the RIB. -/
def protocolTaskOk (rib : Rib W) (env : Env W) (w : RouteWatcher W) : Task W → Prop
  | .rib op => ∀ k ∈ opKey op, ∀ edit ∈ routeEdit rib k op, ∀ x ∈ w.protocolWatchTable,
      x.2.canceled = false → proxyOf x.2 = none → Noted rib env k x.2 x.1 edit
  | _ => True

instance (rib : Rib W) (env : Env W) (w : RouteWatcher W) :
    ∀ t : Task W, Decidable (protocolTaskOk rib env w t)
  | .rib _ => by unfold protocolTaskOk; infer_instance
  | .addPrefix .. | .addAddress .. | .addProtocol .. | .remove _ => .isTrue trivial

def protocolOk (s : RibSystem W) : Event W → Prop
  | .call _ _ => True
  | .exec env => ∀ t ∈ s.watcher.queue.head?, protocolTaskOk s.rib env s.watcher t

instance (s : RibSystem W) : ∀ e : Event W, Decidable (protocolOk s e)
  | .call .. => .isTrue trivial
  | .exec _ => by unfold protocolOk; infer_instance

/-- After the edit, the slot of the best route before shows a route of `sp`. -/
def prevShows (rib' : Rib W) (env : Env W) (k : PrefixKey W) (b : RibBucket W) (sp : SrcPid) : Bool :=
  b.prevBest.any fun q => srcPidAt rib' env k q = sp

/-- The pointers of a watch of `sp` tell the truth, for the bucket `b` announced. -/
def ProcessTracked (rib rib' : Rib W) (env : Env W) (k : PrefixKey W) (b : RibBucket W)
    (sp : SrcPid) (n : WatchNode W) : Prop :=
  let seen := n.lastKnown.map (read rib' env)
  let old := contributed rib k sp
  let new := contributed rib' k sp
  if b.routes = [] then n.lastKnown.isSome = old.isSome
  else if new.isSome then
    routesEqual seen old = true ∨ (routesEqual seen new = false ∧ routesEqual old new = false)
  else old.isSome = (prevShows rib' env k b sp &&
    !routesEqual seen (bestOf rib' k fun r => r.srcPid = sp))

/-! ## One announcement -/

section
variable {rib rib' : Rib W} {env : Env W} {k : PrefixKey W} {b : RibBucket W}

theorem filterMap_append_perm {α β : Type} {f g : α → Option β}
    (h : ∀ x, f x = none ∨ g x = none) (xs : List α) :
    (xs.filterMap f ++ xs.filterMap g).Perm (xs.filterMap fun x => (f x).or (g x)) := by
  induction xs with
  | nil => exact List.Perm.refl _
  | cons x xs ih =>
    simp only [List.filterMap_cons]
    rcases h x with hx | hx
    · rw [hx, Option.none_or]
      cases g x with
      | none => exact ih
      | some y => exact List.perm_middle.trans (ih.cons y)
    · rw [hx, Option.or_none]
      cases f x with
      | none => exact ih
      | some y => exact ih.cons y

theorem filterMap_fireNodes {κ β : Type} {fire : κ → Bool} {g : κ × WatchNode W → Option β}
    (hg : ∀ x, fire x.1 = true → g x = none) (kind : WatchKind)
    (eraseId : ℕ → RouteWatcher W → RouteWatcher W) (getCur : WatchNode W → Option (Ptr W))
    (xs : List (κ × WatchNode W)) (s : Log W) :
    (fireNodes rib env kind eraseId fire getCur xs s).1.filterMap g = xs.filterMap g := by
  induction xs generalizing s with
  | nil => rfl
  | cons x xs ih =>
    obtain ⟨k, n⟩ := x
    rw [fireNodes]
    split_ifs with hk hc
    · rw [ih, List.filterMap_cons, hg (k, n) hk]
    · simp only
      rw [List.filterMap_append, ih, List.filterMap_cons, hg (k, n) hk]
      cases (fireNode rib env kind eraseId (getCur n) n s).1 with
      | none => rfl
      | some n' => simp [hg (k, n') hk]
    · simp only [List.filterMap_cons, ih]

def processCall (rib' : Rib W) (env : Env W) (k : PrefixKey W) (b : RibBucket W)
    (x : SrcPid × WatchNode W) : Option (Invocation W) :=
  nodeCall rib' env .protocol (getBestRoute k b fun r => r.srcPid = x.1) x.2

theorem callsOf_fireProcess (sp : SrcPid) (s : Log W) :
    callsOf .protocol (fireProtocol rib' env (· = sp) (getBestRoute k b fun r => r.srcPid = sp) s).2 =
      callsOf .protocol s.2 ++ s.1.protocolWatchTable.filterMap fun x =>
        if x.1 = sp then processCall rib' env k b x else none := by
  refine (callsOf_fireNodes_self rib' env (by decide) ..).trans (congrArg _ ?_)
  refine List.filterMap_congr fun x _ => ?_
  simp only [decide_eq_true_eq]
  split_ifs with hx
  · rw [processCall, hx]
  · rfl

/-- The processes whose watches an announcement fires. -/
def examined (rib' : Rib W) (env : Env W) (k : PrefixKey W) (b : RibBucket W) (sp : SrcPid) : Bool :=
  b.routes.isEmpty || prevShows rib' env k b sp ||
    b.bestEntry.any fun p => srcPidAt rib' env k p = sp

theorem callsOf_announceProtocol_perm (s : Log W) :
    (callsOf .protocol (announceProtocol rib' env k b s).2).Perm (callsOf .protocol s.2 ++
      s.1.protocolWatchTable.filterMap fun x =>
        if examined rib' env k b x.1 then processCall rib' env k b x else none) := by
  unfold announceProtocol
  cases hr : b.routes.isEmpty with
  | true =>
    rw [if_pos rfl]
    refine List.Perm.of_eq ((callsOf_fireNodes_self rib' env (by decide) ..).trans (congrArg _ ?_))
    refine List.filterMap_congr fun x _ => ?_
    have hnone : getBestRoute k b (fun r => r.srcPid = x.1) = none := by
      rw [getBestRoute, List.isEmpty_iff.1 hr]; rfl
    simp [examined, hr, processCall, hnone]
  | false =>
    rw [if_neg (by simp)]
    cases hq : b.prevBest with
    | none =>
      cases hp : b.bestEntry with
      | none => simp [examined, prevShows, hr, hq, hp]
      | some p =>
        simp only [Option.any_none, Bool.false_eq_true, if_false]
        rw [callsOf_fireProcess]
        simp [examined, prevShows, hr, hq, hp, eq_comm]
    | some q =>
      cases hp : b.bestEntry with
      | none =>
        simp only
        rw [callsOf_fireProcess]
        simp [examined, prevShows, hr, hq, hp, eq_comm]
      | some p =>
        simp only [Option.any_some, decide_eq_true_eq]
        split_ifs with hpq
        · rw [callsOf_fireProcess]
          simp [examined, prevShows, hr, hq, hp, hpq, eq_comm]
        · rw [callsOf_fireProcess, callsOf_fireProcess, List.append_assoc]
          refine List.Perm.append_left _ ?_
          -- the second loop meets the nodes of its process as they were
          have hrest : (fireProtocol rib' env (· = srcPidAt rib' env k q)
                (getBestRoute k b fun r => r.srcPid = srcPidAt rib' env k q) s).1.protocolWatchTable.filterMap
              (fun x => if x.1 = srcPidAt rib' env k p then processCall rib' env k b x else none) =
              s.1.protocolWatchTable.filterMap fun x =>
                if x.1 = srcPidAt rib' env k p then processCall rib' env k b x else none := by
            refine filterMap_fireNodes (fun x hx => ?_) ..
            rw [if_neg fun h => hpq (by rw [← h]; exact (of_decide_eq_true hx).symm)]
          rw [hrest]
          refine (filterMap_append_perm (fun x => ?_) _).trans (List.Perm.of_eq ?_)
          · by_cases hx : x.1 = srcPidAt rib' env k q
            · exact Or.inr (if_neg fun h => hpq (hx.symm.trans h))
            · exact Or.inl (if_neg hx)
          · refine List.filterMap_congr fun x _ => ?_
            by_cases hx : x.1 = srcPidAt rib' env k q
            · have hne : ¬ x.1 = srcPidAt rib' env k p := fun h => hpq (hx.symm.trans h)
              simp [examined, prevShows, hq, hx, hpq]
            · simp [examined, prevShows, hr, hq, hp, hx, eq_comm]

theorem callsOf_announceRouteChange_perm (w : RouteWatcher W) :
    (callsOf .protocol (announceRouteChange rib' env k b (w, [])).2).Perm
      (w.protocolWatchTable.filterMap fun x =>
        if examined rib' env k b x.1 then processCall rib' env k b x else none) := by
  simp only [announceRouteChange]
  refine (callsOf_announceProtocol_perm _).trans (List.Perm.of_eq ?_)
  split_ifs
  · have hlog : callsOf .protocol (firePrefix rib' env (Rib.keyOf k.1 k.2)
        (fun n => computeBestForPrefix k b n.filter) (w, [])).2 = [] :=
      callsOf_fireNodes_other rib' env (by decide) (by decide) ..
    have htab : (firePrefix rib' env (Rib.keyOf k.1 k.2)
        (fun n => computeBestForPrefix k b n.filter) (w, [])).1.protocolWatchTable =
          w.protocolWatchTable :=
      fireNodes_frame rib' env .route (fun _ _ h => SameTables.protocolTable h)
        (fun id w => (rfl : (erasePrefixId id w).protocolWatchTable = _)) ..
    rw [hlog, htab]; rfl
  · rfl

theorem bestEntry_shows (he : Edited rib rib' k b) (sp : SrcPid) :
    (b.bestEntry.any fun p => srcPidAt rib' env k p = sp) = (contributed rib' k sp).isSome := by
  rw [contributed, ← he.read_bestEntry env]
  cases b.bestEntry with
  | none => rfl
  | some p =>
    simp only [Option.any_some, Option.map_some, Option.filter_some, srcPidAt]
    split_ifs with hp
    · exact hp
    · exact Bool.not_eq_true _ ▸ hp

/-- A watch is fired and called if and only if its process gains, loses or changes the
    best route. -/
theorem examined_differs_iff (he : Edited rib rib' k b) {sp : SrcPid} {n : WatchNode W}
    (h : ProcessTracked rib rib' env k b sp n) :
    (examined rib' env k b sp = true ∧
        Differs rib' env n (getBestRoute k b fun r => r.srcPid = sp)) ↔
      routesEqual (contributed rib k sp) (contributed rib' k sp) = false := by
  simp only [ProcessTracked] at h
  rw [examined, bestEntry_shows he, Differs, he.read_getBestRoute]
  split_ifs at h with hr hn
  · have hbest : ∀ p, bestOf rib' k p = none := by
      intro p; rw [he.bestOf_eq, hr]; rfl
    have hnew : contributed rib' k sp = none := by rw [contributed, hbest]; rfl
    rw [hbest, hnew, routesEqual_none, routesEqual_none, hr]
    simpa using h
  · obtain ⟨r, hnew⟩ := Option.isSome_iff_exists.1 hn
    rw [bestOf_of_contributed hnew, hnew]
    rw [hnew] at h
    simp only [Option.isSome_some, Bool.or_true, true_and]
    rcases h with h | ⟨h₁, h₂⟩
    · rw [routesEqual_congr h]
    · exact iff_of_true h₁ h₂
  · have hnew : contributed rib' k sp = none := by simpa using hn
    have hempty : b.routes.isEmpty = false := by simpa using hr
    rw [hnew, routesEqual_none, hempty]
    simp only [Option.isSome_none, Bool.or_false, Bool.false_or]
    rw [← Option.not_isSome, h]
    simp

theorem processCall_changed (he : Edited rib rib' k b) {x : SrcPid × WatchNode W}
    (hx : x.2.canceled = false → proxyOf x.2 = none → ProcessTracked rib rib' env k b x.1 x.2) :
    ((if examined rib' env k b x.1 then processCall rib' env k b x else none).map fun i =>
        (i.id, i.fn, i.ctx)) =
      match x.2.fn with
      | .user fn ctx => if x.2.canceled = false ∧
          routesEqual (contributed rib k x.1) (contributed rib' k x.1) = false then
            some (x.2.id, fn, ctx) else none
      | .addrWatch _ => none := by
  obtain ⟨sp, n⟩ := x
  simp only at hx ⊢
  cases hfn : n.fn with
  | addrWatch state =>
    have hcall : processCall rib' env k b (sp, n) = none := by
      rw [processCall, nodeCall, hfn]
    rw [hcall, ite_self]; rfl
  | user fn ctx =>
    cases hc : n.canceled with
    | true => rw [processCall, nodeCall_canceled rib' env hc, ite_self]; simp
    | false =>
      have hpt := hx hc (by rw [proxyOf, hfn])
      have hcall := examined_differs_iff he hpt
      rw [processCall, nodeCall, hfn]
      simp only [hc, true_and]
      split_ifs with h₁ h₂ h₃ h₃ h₃
      · rfl
      · exact absurd (hcall.1 ⟨h₁, h₂⟩) h₃
      · exact absurd (hcall.2 h₃).2 h₂
      · rfl
      · exact absurd (hcall.2 h₃).1 h₁
      · rfl

end

/-! ## The pointers after an edit -/

section
variable {rib rib' : Rib W} {env : Env W} {k : PrefixKey W} {b b' : RibBucket W}
  {n : WatchNode W} {sp : SrcPid} {i : ℕ} {r e : RibEntry W} {x y : ℕ × RibEntry W}

theorem Unlike.seen (h : Unlike rib env k n r)
    (hkept : ∀ q : Ptr W, q.key ≠ k → read rib' env q = read rib env q) :
    routesEqual (n.lastKnown.map (read rib' env)) (some r) = false := by
  cases hq : n.lastKnown with
  | none => rfl
  | some q =>
    obtain ⟨hne, hdiff⟩ := h q hq
    rw [Option.map_some, hkept q hne]
    exact hdiff

theorem Alike.seen (h : Alike rib env k n r)
    (hkept : ∀ q : Ptr W, q.key ≠ k → read rib' env q = read rib env q) :
    routesEqual (n.lastKnown.map (read rib' env)) (some r) = true := by
  obtain ⟨q, hq, hne, heq⟩ := h
  rw [Option.mem_def.1 hq, Option.map_some, hkept q hne]
  exact heq

theorem Holds.seen (h : Holds rib env k b n x)
    (hkept : ∀ q : Ptr W, q.key ≠ k → read rib' env q = read rib env q)
    (hslot : routesEqual (some (read rib' env (.route k (b.block, x.1)))) (some x.2) = true) :
    routesEqual (n.lastKnown.map (read rib' env)) (some x.2) = true := by
  rcases h with hat | halike
  · rw [hat]; exact hslot
  · exact halike.seen hkept

theorem contributed_of_bestOf (h : bestOf rib k (fun _ => true) = some r) :
    contributed rib k sp = if r.srcPid = sp then some r else none := by
  rw [contributed, h, Option.filter_some]
  simp only [decide_eq_true_eq]

theorem bestOf_process (hinv : Rib.Inv rib') (he : Edited rib rib' k b') (hi : b'.routes[i]? = some r)
    (hsp : r.srcPid = sp) : bestOf rib' k (fun r => r.srcPid = sp) = some r := by
  have hne : b'.routes ≠ [] := List.ne_nil_of_mem (List.mem_of_getElem? hi)
  have hnodup := (hinv.bucket k b' (by rw [he.table, if_neg hne])).nodup
  obtain ⟨x, hx⟩ := exists_bestSlot (p := fun r => r.srcPid = sp) (List.mem_of_getElem? hi)
    (decide_eq_true hsp)
  have hbest := isBest_of_bestSlot hx
  have hslot : x.1 = i := by
    by_contra hne
    exact srcPid_ne hnodup hbest.slot hi hne ((of_decide_eq_true hbest.pass).trans hsp.symm)
  rw [he.bestOf_eq, hx, Option.map_some, ← hi, ← hslot, hbest.slot]

theorem tracked_of_best (he : Edited rib rib' k b') (ht : rib.table k = some b)
    (hx : bestSlot (fun _ => true) b.routes = some x) (hy : bestSlot (fun _ => true) b'.routes = some y)
    (hown : y.2.srcPid = sp → x.2.srcPid = sp ∧
        routesEqual (n.lastKnown.map (read rib' env)) (some x.2) = true ∨
      routesEqual (n.lastKnown.map (read rib' env)) (some y.2) = false ∧
        (x.2.srcPid = sp → routesEqual (some x.2) (some y.2) = false))
    (hstop : x.2.srcPid = sp → y.2.srcPid ≠ sp → prevShows rib' env k b' sp = true ∧
      routesEqual (n.lastKnown.map (read rib' env)) (bestOf rib' k fun r => r.srcPid = sp) = false)
    (hquiet : x.2.srcPid ≠ sp → y.2.srcPid ≠ sp → prevShows rib' env k b' sp = true →
      routesEqual (n.lastKnown.map (read rib' env)) (bestOf rib' k fun r => r.srcPid = sp) = true) :
    ProcessTracked rib rib' env k b' sp n := by
  have hne : b'.routes ≠ [] := by
    intro hnil
    rw [hnil] at hy
    cases hy
  have hold : contributed rib k sp = if x.2.srcPid = sp then some x.2 else none :=
    contributed_of_bestOf (by rw [bestOf_of_table ht, hx]; rfl)
  have hnew : contributed rib' k sp = if y.2.srcPid = sp then some y.2 else none :=
    contributed_of_bestOf (by rw [he.bestOf_eq, hy]; rfl)
  simp only [ProcessTracked, if_neg hne, hold, hnew]
  by_cases hysp : y.2.srcPid = sp
  · rw [if_pos hysp, Option.isSome_some, if_pos rfl]
    rcases hown hysp with ⟨hxsp, hseen⟩ | ⟨hseen, hdiff⟩
    · rw [if_pos hxsp]; exact .inl hseen
    · refine .inr ⟨hseen, ?_⟩
      split_ifs with hxsp
      · exact hdiff hxsp
      · rfl
  · rw [if_neg hysp, Option.isSome_none, if_neg Bool.false_ne_true]
    by_cases hxsp : x.2.srcPid = sp
    · obtain ⟨hshows, hdiff⟩ := hstop hxsp hysp
      rw [if_pos hxsp, hshows, hdiff]; rfl
    · rw [if_neg hxsp, Option.isSome_none, eq_comm, Bool.and_eq_false_iff]
      cases hshows : prevShows rib' env k b' sp with
      | false => exact .inl rfl
      | true => rw [hquiet hxsp hysp hshows]; exact .inr rfl

theorem prevShows_iff (env : Env W) (sp : SrcPid) (hinv : Rib.Inv rib) (he : Edited rib rib' k b')
    (ht : rib.table k = some b) (hx : bestSlot (fun _ => true) b.routes = some x) :
    prevShows rib' env k b' sp = true ↔ (read rib' env (.route k (b.block, x.1))).srcPid = sp := by
  rw [prevShows, he.prevBest_eq hinv ht, hx]
  exact decide_eq_true_iff

/-! ### One edit -/

theorem tracked_first (he : Edited rib rib' k b')
    (hkept : ∀ q : Ptr W, q.key ≠ k → read rib' env q = read rib env q) (ht : rib.table k = none)
    (hroutes : b'.routes = [e]) (h : Noted rib env k n sp (.first e)) :
    ProcessTracked rib rib' env k b' sp n := by
  have hold : contributed rib k sp = none := by rw [contributed, bestOf, ht]; rfl
  have hnew : contributed rib' k sp = if e.srcPid = sp then some e else none :=
    contributed_of_bestOf (by rw [he.bestOf_eq, hroutes]; rfl)
  have hprev : b'.prevBest = none := by rw [he.prev, ht]; rfl
  simp only [ProcessTracked, hroutes, if_neg (List.cons_ne_nil e []), hold, hnew, prevShows, hprev]
  by_cases hsp : e.srcPid = sp
  · rw [if_pos hsp, Option.isSome_some, if_pos rfl]
    exact .inr ⟨(h hsp.symm).seen hkept, rfl⟩
  · rw [if_neg hsp, Option.isSome_none, if_neg Bool.false_ne_true]; rfl

theorem tracked_replace (hinv : Rib.Inv rib) (hinv' : Rib.Inv rib') (he : Edited rib rib' k b')
    (hkept : ∀ q : Ptr W, q.key ≠ k → read rib' env q = read rib env q)
    (ht : rib.table k = some b) (hi : b.routes[i]? = some r) (hsp : r.srcPid = e.srcPid)
    (hcost : ¬ e.sameCost r) (hroutes : b'.routes = b.routes.set i e) (hblock : b'.block = b.block)
    (h : Noted rib env k n sp (.replace b i r e)) : ProcessTracked rib rib' env k b' sp n := by
  have hlen := (List.getElem?_eq_some_iff.1 hi).1
  have hnodup := (hinv.bucket _ _ ht).nodup
  have hself : (b.routes.set i e)[i]? = some e := List.getElem?_set_self hlen
  obtain ⟨x, hx⟩ := exists_bestSlot (p := fun _ => true) (List.mem_of_getElem? hi) rfl
  obtain ⟨y, hy⟩ := exists_bestSlot (p := fun _ => true) (List.mem_of_getElem? hself) rfl
  have hxslot := (isBest_of_bestSlot hx).slot
  -- the slot of the best route before shows the new route, or the best one still
  have hshows : read rib' env (.route k (b.block, x.1)) = if x.1 = i then e else x.2 := by
    rw [he.read_before, if_pos hblock, hroutes]
    split_ifs with hxi
    · rw [hxi, hself]; rfl
    · rw [List.getElem?_set_ne (Ne.symm hxi), hxslot]; rfl
  have hprev := prevShows_iff env sp hinv he ht hx
  rw [hshows] at hprev
  have hxi (hxr : x.1 = i) : x.2 = r := by rw [hxr, hi] at hxslot; exact (Option.some.inj hxslot).symm
  have hxne (hxr : x.1 ≠ i) : x.2.srcPid ≠ e.srcPid := hsp ▸ srcPid_ne hnodup hxslot hi hxr
  have hyslot := (isBest_of_bestSlot hy).slot
  have hyi (hyr : y.1 = i) : y.2 = e := by rw [hyr, hself] at hyslot; exact (Option.some.inj hyslot).symm
  have hyne (hyr : y.1 ≠ i) : y.2.srcPid ≠ e.srcPid := by
    rw [List.getElem?_set_ne (Ne.symm hyr)] at hyslot
    exact hsp ▸ srcPid_ne hnodup hyslot hi hyr
  simp only [Noted] at h
  refine tracked_of_best he ht hx (by rw [hroutes]; exact hy) (fun hysp => ?_) (fun hxsp hysp => ?_)
    fun hxsp hysp hprevShows => ?_
  · by_cases hye : y.1 = i
    · -- the new route is the best
      obtain rfl := hyi hye
      rw [if_pos hysp.symm] at h
      have hleads : LeadsAt (fun _ => true) b.routes i y.2 :=
        leads_set.1 ((leads_iff hself).2 (by rw [hy, ← hye]))
      refine .inr ⟨(h (.inr hleads)).seen hkept, fun hxsp => ?_⟩
      rw [hxi (not_imp_comm.1 hxne (not_not.2 (hxsp.trans hysp.symm)))]
      exact routesEqual_of_cost hcost
    · rw [if_neg fun heq => hyne hye (hysp.trans heq)] at h
      have hle : ¬ LeadsAt (fun _ => true) b.routes i e := fun hl => by
        rw [bestSlot_set hlen hl] at hy
        exact hye (congrArg Prod.fst (Option.some.inj hy)).symm
      by_cases hr : LeadsAt (fun _ => true) b.routes i r
      · refine .inr ⟨(h.2 hr hle y hy hysp.symm).seen hkept, fun hxsp => ?_⟩
        rw [(leads_iff hi).1 hr] at hx
        obtain rfl := Option.some.inj hx
        exact absurd (hysp.trans (hxsp.symm.trans hsp)) (hyne hye)
      · rw [bestSlot_set_of_not hi hr hle, hx] at hy
        obtain rfl := Option.some.inj hy
        have hholds := h.1 x hx hysp.symm
        rw [if_neg hle] at hholds
        refine .inl ⟨hysp, hholds.seen hkept ?_⟩
        rw [hshows, if_neg hye]
        exact routesEqual_refl _
  · by_cases hxe : x.1 = i
    · obtain rfl := hxi hxe
      rw [if_pos (hxsp.symm.trans hsp)] at h
      refine ⟨hprev.2 (by rw [if_pos hxe]; exact hsp.symm.trans hxsp), ?_⟩
      rw [bestOf_process hinv' he (by rw [hroutes]; exact hself) (hsp.symm.trans hxsp)]
      exact (h (.inl ((leads_iff hi).2 (by rw [hx, ← hxe])))).seen hkept
    · rw [if_neg fun heq => hxne hxe (hxsp.trans heq)] at h
      have hunlike := h.1 x hx hxsp.symm
      split_ifs at hunlike with hle
      · refine ⟨hprev.2 (by rw [if_neg hxe]; exact hxsp), ?_⟩
        rw [bestOf_process hinv' he (i := x.1) (r := x.2) ?_ hxsp]
        · exact hunlike.seen hkept
        · rw [hroutes, List.getElem?_set_ne (Ne.symm hxe)]; exact hxslot
      · rw [bestSlot_set_of_ne hlen hx hxe hle] at hy
        obtain rfl := Option.some.inj hy
        exact absurd hxsp hysp
  · rw [hprev] at hprevShows
    split_ifs at hprevShows with hxe
    · rw [hxi hxe, hsp] at hxsp
      exact absurd hprevShows hxsp
    · exact absurd hprevShows hxsp

theorem tracked_push (hinv : Rib.Inv rib) (hinv' : Rib.Inv rib') (he : Edited rib rib' k b')
    (hkept : ∀ q : Ptr W, q.key ≠ k → read rib' env q = read rib env q)
    (ht : rib.table k = some b) (hspare : ∀ r ∈ b.routes, r.srcPid ≠ e.srcPid)
    (hroutes : b'.routes = b.routes ++ [e])
    (hblock : b'.block = if b.routes.length < b.capacity then b.block else rib.next)
    (h : Noted rib env k n sp (.push b e)) : ProcessTracked rib rib' env k b' sp n := by
  obtain ⟨r, hr⟩ := List.exists_mem_of_ne_nil _ (hinv.bucket _ _ ht).nonempty
  obtain ⟨x, hx⟩ := exists_bestSlot (p := fun _ => true) hr rfl
  obtain ⟨hstart, hbefore⟩ := h
  obtain ⟨hlinger, hown⟩ := hbefore x hx
  have hxslot := (isBest_of_bestSlot hx).slot
  have hxlen := (List.getElem?_eq_some_iff.1 hxslot).1
  have hxslot' : b'.routes[x.1]? = some x.2 := by
    rw [hroutes, List.getElem?_append_left hxlen]; exact hxslot
  have hshows : routesEqual (some (read rib' env (.route k (b.block, x.1)))) (some x.2) = true := by
    rw [he.read_before]
    split_ifs with hsame
    · rw [hxslot']; exact routesEqual_refl _
    · have hmoved : b.capacity ≤ b.routes.length := by
        by_contra hroom
        exact hsame (by rw [hblock, if_pos (not_le.1 hroom)])
      exact hlinger hmoved x.2 hxslot
  have hprev := prevShows_iff env sp hinv he ht hx
  rw [srcPid_of_routesEqual hshows] at hprev
  by_cases hle : LeadsAt (fun _ => true) b.routes b.routes.length e
  · have hy : bestSlot (fun _ => true) b'.routes = some (b.routes.length, e) := by
      rw [hroutes, bestSlot_concat, if_pos hle]
    refine tracked_of_best he ht hx hy (fun hysp => ?_) (fun hxsp hysp => ?_) fun hxsp _ hprevShows => ?_
    · refine .inr ⟨(hstart hysp.symm hle).seen hkept, fun hxsp => ?_⟩
      exact absurd (hxsp.trans hysp.symm) (hspare x.2 (List.mem_of_getElem? hxslot))
    · refine ⟨hprev.2 hxsp, ?_⟩
      have hunlike := hown hxsp.symm
      rw [if_pos hle] at hunlike
      rw [bestOf_process hinv' he hxslot' hxsp]
      exact hunlike.seen hkept
    · exact absurd (hprev.1 hprevShows) hxsp
  · have hy : bestSlot (fun _ => true) b'.routes = some x := by
      rw [hroutes, bestSlot_concat, if_neg hle]; exact hx
    refine tracked_of_best he ht hx hy (fun hysp => ?_) (fun hxsp hysp => absurd hxsp hysp)
      fun hxsp _ hprevShows => absurd (hprev.1 hprevShows) hxsp
    have hholds := hown hysp.symm
    rw [if_neg hle] at hholds
    exact .inl ⟨hysp, hholds.seen hkept hshows⟩

theorem tracked_drop_last (ht : rib.table k = some b) (hx : bestSlot (fun _ => true) b.routes = some x)
    (hroutes : b'.routes = []) (h : n.lastKnown.isSome ↔ x.2.srcPid = sp) :
    ProcessTracked rib rib' env k b' sp n := by
  have hold : contributed rib k sp = if x.2.srcPid = sp then some x.2 else none :=
    contributed_of_bestOf (by rw [bestOf_of_table ht, hx, Option.map_some])
  simp only [ProcessTracked, hroutes, if_true, hold]
  rw [Bool.eq_iff_iff, h]
  split_ifs with hsp <;> simp [hsp]

theorem tracked_drop (hinv : Rib.Inv rib) (hinv' : Rib.Inv rib') (he : Edited rib rib' k b')
    (hkept : ∀ q : Ptr W, q.key ≠ k → read rib' env q = read rib env q)
    (ht : rib.table k = some b) (hi : b.routes[i]? = some r)
    (hroutes : b'.routes = b.routes.eraseIdx i) (hblock : b'.block = b.block)
    (h : Noted rib env k n sp (.drop b i r)) : ProcessTracked rib rib' env k b' sp n := by
  have hlen := (List.getElem?_eq_some_iff.1 hi).1
  have hlen' := List.length_eraseIdx_of_lt hlen
  have hothers (z : RibEntry W) (hz : z ∈ b'.routes) : r.srcPid ≠ z.srcPid :=
    srcPid_ne_of_mem_eraseIdx (hinv.bucket _ _ ht).nodup hi (hroutes ▸ hz)
  obtain ⟨x, hx⟩ := exists_bestSlot (p := fun _ => true) (List.mem_of_getElem? hi) rfl
  have hxslot := (isBest_of_bestSlot hx).slot
  have hxlen := (List.getElem?_eq_some_iff.1 hxslot).1
  have hxi (hxr : x.1 = i) : x.2 = r := by rw [hxr, hi] at hxslot; exact (Option.some.inj hxslot).symm
  rw [Noted] at h
  by_cases hone : b.routes.length = 1
  · rw [if_pos hone] at h
    exact tracked_drop_last ht hx (by rw [hroutes, ← List.length_eq_zero_iff]; omega)
      (hxi (by omega) ▸ h)
  rw [if_neg hone] at h
  obtain ⟨hlinger, hown, hbehind, hstart⟩ := h x hx
  have hget (m : ℕ) : b'.routes[m]? = if m < i then b.routes[m]? else b.routes[m + 1]? := by
    rw [hroutes, List.getElem?_eraseIdx]
  obtain ⟨r', hr'⟩ := List.exists_mem_of_length_pos (l := b'.routes) (by rw [hroutes, hlen']; omega)
  obtain ⟨y, hy⟩ := exists_bestSlot (p := fun _ => true) hr' rfl
  have hshows : read rib' env (.route k (b.block, x.1)) =
      ((if x.1 < i then some x.2 else b.routes[x.1 + 1]?).getD (env.freed (.route k (b.block, x.1)))) := by
    rw [he.read_before, if_pos hblock, hget]
    split_ifs
    · rw [hxslot]
    · rfl
  have hfreed (hlast : x.1 + 1 = b.routes.length) (hle : i ≤ x.1) :
      routesEqual (some (read rib' env (.route k (b.block, x.1)))) (some x.2) = true := by
    rw [hshows, if_neg (not_lt.2 hle), List.getElem?_eq_none hlast.ge]
    exact hlinger hle hlast x.2 hxslot
  have hprev := prevShows_iff env sp hinv he ht hx
  have hymoved (hxr : x.1 ≠ i) : y.2 = x.2 := by
    have hmoved := bestSlot_eraseIdx hx hxr
    rw [← hroutes, hy] at hmoved
    rw [Option.some.inj hmoved]
  refine tracked_of_best he ht hx hy (fun hysp => ?_) (fun hxsp hysp => ?_) fun hxsp hysp hprevShows => ?_
  · by_cases hxr : x.1 = i
    · refine .inr ⟨(hstart hxr y (hroutes ▸ hy) hysp.symm).seen hkept, fun hxsp => ?_⟩
      -- the new best route is of another process
      rw [hxi hxr]
      exact routesEqual_of_srcPid (hothers y.2 (List.mem_of_getElem? (isBest_of_bestSlot hy).slot))
    · have hyx := hymoved hxr
      rw [hyx] at hysp
      refine .inl ⟨hysp, ?_⟩
      have hholds := hown hysp.symm
      rw [if_neg hxr] at hholds
      split_ifs at hholds with hcase
      · refine hholds.seen hkept ?_
        by_cases hlt : x.1 < i
        · rw [hshows, if_pos hlt]; exact routesEqual_refl _
        · exact hfreed (hcase.resolve_left hlt) (not_lt.1 hlt)
      · exact hholds.seen hkept
  · have hxr : x.1 = i := by
      by_contra hxr
      exact hysp (by rw [hymoved hxr]; exact hxsp)
    have hlast := hown hxsp.symm
    rw [if_pos hxr] at hlast
    have hnone : bestOf rib' k (fun r => r.srcPid = sp) = none := by
      rw [he.bestOf_eq, Option.map_eq_none_iff, bestSlot_eq_none]
      rw [hxi hxr] at hxsp
      exact fun z hz => decide_eq_false fun hzsp => hothers z hz (hxsp.trans hzsp.symm)
    refine ⟨hprev.2 ((srcPid_of_routesEqual (hfreed (hxr ▸ hlast.1) hxr.ge)).trans hxsp), ?_⟩
    rw [hnone, routesEqual_none, Option.isNone_map, ← Option.not_isSome, hlast.2]; rfl
  · rw [hprev] at hprevShows
    by_cases hlt : x.1 < i
    · rw [hshows, if_pos hlt] at hprevShows
      exact absurd hprevShows hxsp
    cases hz : b.routes[x.1 + 1]? with
    | none =>
      have hlast : x.1 + 1 = b.routes.length := by
        have := List.getElem?_eq_none_iff.1 hz; omega
      rw [srcPid_of_routesEqual (hfreed hlast (not_lt.1 hlt))] at hprevShows
      exact absurd hprevShows hxsp
    | some z =>
      rw [hshows, if_neg hlt, hz, Option.getD_some] at hprevShows
      rcases hbehind (not_lt.1 hlt) z hz hprevShows.symm with ⟨hxr, hfollows⟩ | halike
      · -- the route behind the best one is the new best one
        obtain ⟨z', hz'⟩ := stepsUp_iff.1 hfollows
        have hz'slot := (isBest_of_bestSlot hz').slot
        rw [← hroutes, hget, if_neg (lt_irrefl i), ← hxr, hz] at hz'slot
        rw [← hroutes, hy] at hz'
        rw [Option.some.inj hz', ← Option.some.inj hz'slot] at hysp
        exact absurd hprevShows hysp
      · rw [bestOf_process hinv' he (i := x.1) (r := z) ?_ hprevShows]
        · exact halike.seen hkept
        · rw [hget, if_neg hlt]; exact hz

theorem tracked_of_noted (hinv : Rib.Inv rib) (hinv' : Rib.Inv rib') (he : Edited rib rib' k b')
    (hkept : ∀ q : Ptr W, q.key ≠ k → read rib' env q = read rib env q) {edit : RouteEdit W}
    (hd : Done rib k b' edit) (h : Noted rib env k n sp edit) :
    ProcessTracked rib rib' env k b' sp n := by
  cases hd with
  | first ht hroutes => exact tracked_first he hkept ht hroutes h
  | replace ht hi hsp hcost hroutes hblock =>
    exact tracked_replace hinv hinv' he hkept ht hi hsp hcost hroutes hblock h
  | push ht hspare hroutes hblock => exact tracked_push hinv hinv' he hkept ht hspare hroutes hblock h
  | drop ht hi hroutes hblock => exact tracked_drop hinv hinv' he hkept ht hi hroutes hblock h
  | @same b ht hroutes hblock =>
    obtain ⟨r, hr⟩ := List.exists_mem_of_ne_nil _ (hinv.bucket _ _ ht).nonempty
    obtain ⟨x, hx⟩ := exists_bestSlot (p := fun _ => true) hr rfl
    have hshows : read rib' env (.route k (b.block, x.1)) = x.2 := by
      rw [he.read_before, if_pos hblock, hroutes, (isBest_of_bestSlot hx).slot, Option.getD_some]
    have hprev := prevShows_iff env sp hinv he ht hx
    rw [hshows] at hprev
    refine tracked_of_best he ht hx (by rw [hroutes]; exact hx) (fun hsp => .inl ⟨hsp, ?_⟩)
      (fun hsp hne => absurd hsp hne) fun hne _ hprevShows => absurd (hprev.1 hprevShows) hne
    exact (h x hx hsp.symm).seen hkept (by rw [hshows]; exact routesEqual_refl _)

end

/-! ## Runs -/

theorem protocolReported_step (s : RibSystem W) (e : Event W) (hinv : Rib.Inv s.rib)
    (hok : protocolOk s e) : ProtocolReported s e := by
  unfold ProtocolReported
  split
  · rename_i env op ts hq
    intro k hk
    rw [Option.mem_def] at hk
    have hok' := hok (.rib op) (by rw [hq]; rfl)
    simp only [protocolCalls, calls, step, exec_rib hq]
    cases hb : announced s.rib op with
    | none =>
      have hbest : ∀ sp, contributed (s.rib.step op) k sp = contributed s.rib k sp := by
        intro sp; rw [contributed, contributed, bestOf, bestOf, table_unannounced hk hb]
      simp only [execOp_unannounced hk hb, protocolChanges, hbest, routesEqual_refl]
      refine List.Perm.of_eq (List.filterMap_eq_nil_iff.2 fun x _ => ?_).symm
      cases x.2.fn <;> simp
    | some b =>
      have he := edited_announced hk hb
      obtain ⟨edit, hedit, hd⟩ := announced_edit hinv hk hb
      rw [execOp_announced hk hb]
      refine ((callsOf_announceRouteChange_perm _).map _).trans (List.Perm.of_eq ?_)
      rw [List.map_filterMap, protocolChanges]
      refine List.filterMap_congr fun x hx => processCall_changed he fun hc hproxy => ?_
      exact tracked_of_noted hinv (Rib.inv_step hinv op) he (fun q hne => read_step_of_ne hk hne env) hd
        (hok' k hk edit hedit x hx hc hproxy)
  · rename_i h
    rw [calls_other h]; rfl

/-- **The watches of a process are called on the changes of its best routes**, and on
    nothing else, along every run in which these are noted. -/
theorem protocolReported_run (es : List (Event W))
    (h : Run.Along protocolOk step ({} : RibSystem W) es) :
    Run.Along ProtocolReported step ({} : RibSystem W) es :=
  Run.Along.imp_of_invariant (fun s e hinv _ => ribInv_step s e hinv) protocolReported_step
    (Rib.inv_run []) h

/-- Best routes of two processes start and stop, on two prefixes. -/
theorem protocolReported_run_starts : Run.Along ProtocolReported step ({} : RibSystem 32)
    [.call (.watchProtocol (.BGP, 1) 7 0) (.plain false), .exec (.plain false),
     .call (.watchProtocol (.STATIC, 0) 8 0) (.plain false), .exec (.plain false),
     .call (.rib (.install ⟨0x0A000000, 8, .BGP, 1, 20, 0, 0, []⟩)) (.plain false),
     .exec (.plain false),
     .call (.rib (.withdraw 0x0A000000 8 .BGP 1)) (.plain false), .exec (.plain false),
     .call (.rib (.install ⟨0x0A000000, 8, .STATIC, 0, 1, 0, 0, []⟩)) (.plain false),
     .exec (.plain false),
     .call (.rib (.install ⟨0x0B000000, 8, .BGP, 1, 20, 0, 0, []⟩)) (.plain false),
     .exec (.plain false)] :=
  protocolReported_run _ (by decide +kernel)

/-- Another prefix with the same attributes is not reported. -/
theorem not_protocolReported_prefix : ¬ Run.Along ProtocolReported step ({} : RibSystem 32)
    [.call (.watchProtocol (.BGP, 1) 7 0) (.plain false), .exec (.plain false),
     .call (.rib (.install ⟨0x0A000000, 8, .BGP, 1, 20, 0, 0, []⟩)) (.plain false),
     .exec (.plain false),
     .call (.rib (.install ⟨0x0B000000, 8, .BGP, 1, 20, 0, 0, []⟩)) (.plain false),
     .exec (.plain false)] := by
  decide +kernel

end RibSystem

end VirtualRouter
