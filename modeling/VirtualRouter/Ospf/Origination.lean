/-
  The origination of an area's own LSAs (`routing/ospf/area/Originator.cpp`).

  `originateLsa` keeps the body and posts a callback, which is throttled;
  `runReorigination` builds the header and gives the LSA to the area.  The state has
  the callbacks that are posted for one key, and the last call for it.

  * `Originator.step`: a call of `originateLsa`, or a callback that fires;
  * `Originator.Reoriginated`: what the database is to hold after a callback;
  * `Originator.origination_lawful_iff`: when it does.

  The body is const in `processReoriginatedLsa`, so that the area is asked to evaluate
  the LSA and not to install it; only the copy that is made to flush an LSA at
  MaxSequenceNumber is installed.
-/
import VirtualRouter.Ospf.LsaInstallLaw
import VirtualRouter.Ospf.RxV2

namespace VirtualRouter.Ospf

open NestedMap Run

def OSPF_INITIAL_SEQUENCE : UInt32 := 0x80000001

def OSPF_MAX_SEQUENCE : UInt32 := 0x7FFFFFFF

/-- `LsaThrottleState`; times are in milliseconds, and 0 is the `time_point` that is none. -/
structure LsaThrottleState where
  pending : Bool := false
  backoffMs : UInt32 := 0
  nextFire : ℕ := 0
  lastOriginate : ℕ := 0
  deriving DecidableEq, Repr

structure OriginationInfo (Body : Type) where
  throttleInfo : LsaThrottleState := {}
  body : Body
  refresh : Bool := false
  expire : Bool := false

/-- The configuration that the originator reads; `flags` are those of the area. -/
structure Originator (Body : Type) where
  area : Area
  policy : BodyPolicy Body
  flags : UInt32
  throttleDelay : UInt32 := 0
  throttleHold : UInt32 := 5000
  throttleMax : UInt32 := 5000

structure OriginatorState (Body : Type) where
  area : AreaState Body := {}
  originationState : Map LsaKey (OriginationInfo Body) := ∅
  /-- When the callbacks fire that are posted for the key. -/
  timers : List ℕ := []
  /-- When `fullRefresh` is called. -/
  fullRefreshes : List ℕ := []
  /-- The body and the flag of the last call of `originateLsa`: nothing reads it. -/
  last : Option (Body × Bool) := none

namespace Originator

variable {Body : Type} (o : Originator Body) (key : LsaKey)

/-- `requestReorigination`: the throttle and the callback that is posted, if any. -/
def requestReorigination (state : LsaThrottleState) (now : ℕ) : LsaThrottleState × List ℕ :=
  if state.pending then (state, [])
  else
    let (backoffMs, fireDelay) :=
      if state.lastOriginate = 0 then (o.throttleDelay, o.throttleDelay)
      else
        let elapsed := now - state.lastOriginate
        let holdRemaining : UInt32 :=
          if elapsed < o.throttleHold.toNat then .ofNat (o.throttleHold.toNat - elapsed) else 0
        let backoffMs : UInt32 :=
          if state.backoffMs = 0 then o.throttleDelay else min (state.backoffMs * 2) o.throttleMax
        (backoffMs, max backoffMs holdRemaining)
    let nextFire := now + fireDelay.toNat
    ({ state with pending := true, backoffMs, nextFire }, [nextFire])

def originateLsa (s : OriginatorState Body) (body : Body) (expire : Bool) (now : ℕ) :
    OriginatorState Body :=
  let info := (s.originationState.lookup key).getD { body }
  let info := { info with body, expire }
  let (throttleInfo, posted) := o.requestReorigination info.throttleInfo now
  { s with
    originationState := s.originationState.insert key { info with throttleInfo }
    timers := s.timers ++ posted
    last := some (body, expire) }

/-- `setOption`, of a bit that is set. -/
def setOption (flags : UInt32) (optionBit : UInt8) : UInt32 :=
  flags ||| 1 <<< (8 + optionBit).toUInt32

def options : UInt8 :=
  if o.area.isV3 then 0
  else
    let options := if key.lsaType = 7 then setOption o.flags 3 else o.flags
    (setOption options 5).toUInt8

/-- The context of an LSA of the router itself, with its length and its checksum. -/
def contextOf (sequence : UInt32) (age : UInt16) (body : Body) (info : FloodInfo) : LsaContext :=
  let header : LsaHeader := { sequence, age, options := o.options key }
  let results := o.policy.runLsaCalculations header key body
  { key
    header := { header with length := results.2, checksum := results.1 }
    checksumValid := true
    selfOriginatedKey := true
    info }

def flushContext (body : Body) : LsaContext :=
  o.contextOf key OSPF_MAX_SEQUENCE OSPF_MAX_AGE body { reason := .FLUSH }

def nextContext (existing : Option (LsaRecord Body)) (info : OriginationInfo Body) : LsaContext :=
  let sequence := match existing with
    | some rec => rec.header.sequence + 1
    | none => OSPF_INITIAL_SEQUENCE
  let reason : FloodReason :=
    if info.expire then .FLUSH else if info.refresh then .REFRESH else .UPDATE
  o.contextOf key sequence (if info.expire then OSPF_MAX_AGE else 0) info.body { reason }

/-- The test for a sequence number that has run out. -/
def rollsOver (existing : Option (LsaRecord Body)) (info : OriginationInfo Body) : Bool :=
  !info.expire && existing.any fun rec => rec.header.sequence = OSPF_MAX_SEQUENCE

def processReoriginatedLsa [Inhabited Body] (s : OriginatorState Body) (info : OriginationInfo Body)
    (now : ℕ) : OriginatorState Body :=
  let existing := s.area.db.find key
  if rollsOver existing info then
    { s with
      area := (o.area.processLsa o.policy s.area (o.flushContext key info.body) info.body now).2
      originationState := s.originationState.erase key
      fullRefreshes := s.fullRefreshes ++ [now + 5000] }
  else
    let area := (o.area.processLsaConst o.policy s.area (o.nextContext key existing info) info.body now).2
    if info.expire then { s with area, originationState := s.originationState.erase key }
    else { s with area }

def runReorigination [Inhabited Body] (s : OriginatorState Body) (now : ℕ) : OriginatorState Body :=
  match s.originationState.lookup key with
  | none => s
  | some info =>
    let s := o.processReoriginatedLsa key s info now
    match s.originationState.lookup key with
    | none => s
    | some info =>
      let throttleInfo := { info.throttleInfo with lastOriginate := now, pending := false }
      { s with originationState := s.originationState.insert key { info with throttleInfo } }

/-- What happens to the originator. -/
inductive Event (Body : Type) where
  | originate (body : Body) (expire : Bool) (now : ℕ)
  | fire (now : ℕ)

def step [Inhabited Body] (s : OriginatorState Body) : Event Body → OriginatorState Body
  | .originate body expire now => o.originateLsa key s body expire now
  | .fire now => match s.timers with
    | [] => s
    | t :: ts => if t ≤ now then o.runReorigination key { s with timers := ts } now else s

/-! ## The law -/

def nextSequence (existing : Option (LsaRecord Body)) : UInt32 :=
  match existing with
  | none => OSPF_INITIAL_SEQUENCE
  | some rec =>
    if rec.header.sequence = OSPF_MAX_SEQUENCE then OSPF_INITIAL_SEQUENCE
    else rec.header.sequence + 1

/-- The stored instance is at MaxSequenceNumber and is to be flushed first. -/
def ToFlush (existing : Option (LsaRecord Body)) : Prop :=
  ∃ rec, existing = some rec ∧ rec.header.sequence = OSPF_MAX_SEQUENCE ∧ ¬ rec.header.isMaxAge

/-- **What the database is to hold** after a callback, when it held `existing` and the last call was
    with `body` and `expire`. -/
def Reoriginated (existing : Option (LsaRecord Body)) (body : Body) (expire : Bool)
    (after : LsdbTable Body) : Prop :=
  ∃ r, after.find key = some r ∧
    (ToFlush existing → r.header.sequence = OSPF_MAX_SEQUENCE ∧ r.header.isMaxAge) ∧
    (¬ ToFlush existing → r.body = body ∧ r.header.sequence = nextSequence existing ∧
      (expire → r.header.age = OSPF_MAX_AGE))

/-- The callback fires, and finds the entry `info`. -/
def Finds (s : OriginatorState Body) (now : ℕ) (info : OriginationInfo Body) : Prop :=
  (∃ t ts, s.timers = t :: ts ∧ t ≤ now) ∧ s.originationState.lookup key = some info

/-- **The law**, of one event: a call is kept, with a callback posted for it, and a callback that
    finds an entry installs the last call. -/
def Lawful [Inhabited Body] (s : OriginatorState Body) : Event Body → Prop
  | .originate body expire now =>
    (∃ info, (o.step key s (.originate body expire now)).originationState.lookup key = some info ∧
      info.body = body ∧ info.expire = expire) ∧
    (o.step key s (.originate body expire now)).timers ≠ []
  | .fire now => ∀ info, Finds key s now info → ∃ body expire, s.last = some (body, expire) ∧
    Reoriginated key (s.area.db.find key) body expire (o.step key s (.fire now)).area.db

/-- The event is no callback that finds an entry, save one that flushes: the stored instance is at
    MaxSequenceNumber and not at MaxAge, the entry is not to expire, and the area takes the
    flush for the newer instance. -/
def Flushes (s : OriginatorState Body) : Event Body → Prop
  | .originate .. => True
  | .fire now => ∀ info, Finds key s now info → info.expire = false ∧
    o.area.preProcess o.policy key info.body ∧
    ∃ rec, s.area.db.find key = some rec ∧ rec.header.sequence = OSPF_MAX_SEQUENCE ∧
      ¬ rec.header.isMaxAge ∧
      compareLsaHeaders (o.flushContext key info.body).header rec.header = .NEWER ∧
      rec.lastRefreshTime + o.area.lsaArrival ≤ now

/-! ## The area -/

section
variable {area : Area} {p : BodyPolicy Body} {s : AreaState Body} {ctx : LsaContext} {now : ℕ}

variable (area p ctx now) in
theorem processLsaConst_keeps (hl : s.db.Linked) (hagree : s.db.Agree) (hvalid : ctx.checksumValid)
    (body : Body) :
    (area.processLsaConst p s ctx body now).2.db.Linked ∧
    (area.processLsaConst p s ctx body now).2.db.Agree ∧
    ((s.db.find ctx.key = none ∧ (area.processLsaConst p s ctx body now).2.db.find ctx.key = none) ∨
      ∃ r r', s.db.find ctx.key = some r ∧
        (area.processLsaConst p s ctx body now).2.db.find ctx.key = some r' ∧
        r'.header = r.header ∧ r'.body = r.body) := by
  rw [Area.processLsaConst]
  by_cases hfresh : area.Fresh s.db ctx now
  · rw [Area.process_of_stores (Area.evaluate_stores ctx body hvalid hfresh)]
    simp only [Area.evaluateDecision_db]
    refine ⟨hl, hagree, ?_⟩
    cases hfind : s.db.find ctx.key with
    | none => exact Or.inl ⟨rfl, rfl⟩
    | some r => exact Or.inr ⟨r, r, rfl, rfl, rfl, rfl⟩
  · rw [Area.Fresh] at hfresh
    push Not at hfresh
    obtain ⟨r, hfind, hr⟩ := hfresh
    obtain ⟨result, info, db', hprocess, -, hl', hagree', r', hr', hheader, hbody, -⟩ :=
      Area.process_of_keeps hl hagree hfind
        (Area.evaluate_keeps p body hvalid (Decidable.not_or_of_imp hr))
    rw [hprocess]
    simp only [Area.evaluateDecision_db]
    exact ⟨hl', hagree', Or.inr ⟨r, r', hfind, hr', hheader, hbody⟩⟩

variable (area p ctx now) in
/-- An LSA of the router itself whose body may be moved: it is stored if it is newer and late
    enough. -/
theorem processLsa_own [Inhabited Body] (hl : s.db.Linked) (hagree : s.db.Agree)
    (hvalid : ctx.checksumValid) (hself : ctx.selfOriginatedKey) (body : Body)
    {rec : LsaRecord Body} (hfind : s.db.find ctx.key = some rec) :
    (area.processLsa p s ctx body now).2.db.Linked ∧ (area.processLsa p s ctx body now).2.db.Agree ∧
    ∃ r', (area.processLsa p s ctx body now).2.db.find ctx.key = some r' ∧
      (area.preProcess p ctx.key body ∧ compareLsaHeaders ctx.header rec.header = .NEWER ∧
          rec.lastRefreshTime + area.lsaArrival ≤ now ∧ r'.header = ctx.header ∨
        ¬ (area.preProcess p ctx.key body ∧ compareLsaHeaders ctx.header rec.header = .NEWER ∧
          rec.lastRefreshTime + area.lsaArrival ≤ now) ∧ r'.header = rec.header) := by
  by_cases hpre : area.preProcess p ctx.key body
  · by_cases hfresh : area.Fresh s.db ctx now
    · obtain ⟨info, n, hn⟩ := Area.processLsa_of_fresh ctx body (Or.inr hself) hpre hvalid hfresh
      obtain ⟨r', hr', hheader, -⟩ :=
        hagree.find_upsertBody hl ctx.toIncomingLsaContext 0 now body
      obtain ⟨hnewer, hlate⟩ := hfresh rec hfind
      rw [hn]
      exact ⟨hl.upsertBody _, hagree.upsertBody hl _, r', hr',
        Or.inl ⟨hpre, hnewer, hlate, hheader⟩⟩
    · have hnot : ¬ (compareLsaHeaders ctx.header rec.header = .NEWER ∧
          rec.lastRefreshTime + area.lsaArrival ≤ now) := by
        rintro ⟨hnewer, hlate⟩
        refine hfresh fun r hr => ?_
        rw [hfind] at hr
        cases hr
        exact ⟨hnewer, hlate⟩
      have hkeep : compareLsaHeaders ctx.header rec.header ≠ .NEWER ∨
          now < rec.lastRefreshTime + area.lsaArrival := by
        rw [← Nat.not_le]
        exact Decidable.not_and_iff_not_or_not.1 hnot
      obtain ⟨result, s', hprocess, -, hl', hagree', r', hr', hheader, -⟩ :=
        Area.processLsa_of_keeps ctx body hl hagree hpre hvalid hfind hkeep
      rw [hprocess]
      exact ⟨hl', hagree', r', hr', Or.inr ⟨fun h => hnot h.2, hheader⟩⟩
  · rw [Area.processLsa_of_not_preProcess ctx body hpre]
    exact ⟨hl, hagree, rec, hfind, Or.inr ⟨fun h => hpre h.1, rfl⟩⟩

end

/-! ## The step -/

/-- **The invariant**: the entry has the last call, and a callback is posted for it while it is
    pending. -/
structure Sound (s : OriginatorState Body) : Prop where
  linked : s.area.db.Linked
  agree : s.area.db.Agree
  last : ∀ info, s.originationState.lookup key = some info → s.last = some (info.body, info.expire)
  timers : ∀ info, s.originationState.lookup key = some info → info.throttleInfo.pending →
    s.timers ≠ []

variable {o key} {s : OriginatorState Body}

theorem requestReorigination_cases (state : LsaThrottleState) (now : ℕ) :
    (o.requestReorigination state now).1.pending ∧
      (state.pending ∨ (o.requestReorigination state now).2 ≠ []) := by
  rw [requestReorigination]
  by_cases hpending : state.pending
  · rw [if_pos hpending]
    exact ⟨hpending, Or.inl hpending⟩
  · rw [if_neg hpending]
    exact ⟨rfl, Or.inr (List.cons_ne_nil _ _)⟩

theorem Sound.originateLsa (h : Sound key s) (body : Body) (expire : Bool) (now : ℕ) :
    (∃ info, (o.originateLsa key s body expire now).originationState.lookup key = some info ∧
      info.body = body ∧ info.expire = expire) ∧
    (o.originateLsa key s body expire now).timers ≠ [] := by
  rw [Originator.originateLsa]
  simp only [lookup_insert_eq, if_true]
  refine ⟨⟨_, rfl, rfl, rfl⟩, ?_⟩
  intro hnil
  obtain ⟨htimers, hposted⟩ := List.append_eq_nil_iff.1 hnil
  cases hinfo : s.originationState.lookup key with
  | none =>
    rw [hinfo] at hposted
    exact absurd hposted ((requestReorigination_cases _ now).2.resolve_left Bool.false_ne_true)
  | some info =>
    rw [hinfo] at hposted
    rcases (requestReorigination_cases (o := o) info.throttleInfo now).2 with hpending | hnew
    · exact h.timers info hinfo hpending htimers
    · exact hnew hposted

theorem nextSequence_ne {rec : LsaRecord Body} : nextSequence (some rec) ≠ rec.header.sequence := by
  rw [nextSequence]
  split_ifs with hmax
  · rw [hmax]
    decide
  · intro heq
    simp at heq

theorem not_reoriginated {existing : Option (LsaRecord Body)} {body : Body} {expire : Bool}
    {after : LsdbTable Body}
    (hafter : existing = none ∧ after.find key = none ∨
      ∃ r r', existing = some r ∧ after.find key = some r' ∧ r'.header = r.header) :
    ¬ Reoriginated key existing body expire after := by
  rintro ⟨r'', hr'', hflush, hnext⟩
  rcases hafter with ⟨-, hnone⟩ | ⟨r, r', rfl, hr', hheader⟩
  · rw [hnone] at hr''
    cases hr''
  · rw [hr'] at hr''
    cases hr''
    by_cases htoFlush : ToFlush (some r)
    · have hmax := (hflush htoFlush).2
      obtain ⟨rec, hrec, -, hage⟩ := htoFlush
      cases hrec
      rw [hheader] at hmax
      exact hage hmax
    · have hseq := (hnext htoFlush).2.1
      rw [hheader] at hseq
      exact nextSequence_ne hseq.symm

theorem rollsOver_iff {existing : Option (LsaRecord Body)} {info : OriginationInfo Body} :
    rollsOver existing info ↔ info.expire = false ∧
      ∃ rec, existing = some rec ∧ rec.header.sequence = OSPF_MAX_SEQUENCE := by
  simp [rollsOver, Option.any_eq_true]

section
variable [Inhabited Body]

theorem processReoriginatedLsa_area (info : OriginationInfo Body) (now : ℕ)
    (hroll : ¬ rollsOver (s.area.db.find key) info) :
    (o.processReoriginatedLsa key s info now).area = (o.area.processLsaConst o.policy s.area
      (o.nextContext key (s.area.db.find key) info) info.body now).2 := by
  rw [processReoriginatedLsa, if_neg hroll]
  split_ifs <;> rfl

variable (key) in
/-- **A callback that finds an entry**: the database is as it is to be exactly where the flush of
    an LSA at MaxSequenceNumber is stored. -/
theorem processReoriginatedLsa_spec (hl : s.area.db.Linked) (hagree : s.area.db.Agree)
    (info : OriginationInfo Body) (now : ℕ) :
    (o.processReoriginatedLsa key s info now).area.db.Linked ∧
    (o.processReoriginatedLsa key s info now).area.db.Agree ∧
    (Reoriginated key (s.area.db.find key) info.body info.expire
        (o.processReoriginatedLsa key s info now).area.db ↔
      info.expire = false ∧ o.area.preProcess o.policy key info.body ∧
        ∃ rec, s.area.db.find key = some rec ∧ rec.header.sequence = OSPF_MAX_SEQUENCE ∧
          ¬ rec.header.isMaxAge ∧
          compareLsaHeaders (o.flushContext key info.body).header rec.header = .NEWER ∧
          rec.lastRefreshTime + o.area.lsaArrival ≤ now) := by
  by_cases hroll : rollsOver (s.area.db.find key) info
  · obtain ⟨hexpire, rec, hfind, hmax⟩ := rollsOver_iff.1 hroll
    have harea : (o.processReoriginatedLsa key s info now).area = (o.area.processLsa o.policy s.area
        (o.flushContext key info.body) info.body now).2 := by
      rw [processReoriginatedLsa, if_pos hroll]
    obtain ⟨hl', hagree', r', hr', hcases⟩ := processLsa_own o.area o.policy
      (o.flushContext key info.body) now hl hagree rfl rfl info.body hfind
    have hkey : (o.flushContext key info.body).key = key := rfl
    rw [hkey] at hr' hcases
    rw [harea]
    refine ⟨hl', hagree', ?_⟩
    rcases hcases with ⟨hpre, hnewer, hlate, hheader⟩ | ⟨hnot, hheader⟩
    · by_cases hage : rec.header.isMaxAge
      · -- the flush is stored again
        refine iff_of_false ?_ ?_
        · rintro ⟨r'', hr'', -, hnext⟩
          rw [hr'] at hr''
          cases hr''
          have hnoFlush : ¬ ToFlush (s.area.db.find key) := by
            rintro ⟨rec', hrec', -, hage'⟩
            rw [hfind] at hrec'
            cases hrec'
            exact hage' hage
          have hseq := (hnext hnoFlush).2.1
          have hflush : (o.flushContext key info.body).header.sequence = OSPF_MAX_SEQUENCE := rfl
          rw [hheader, hfind, nextSequence, if_pos hmax, hflush] at hseq
          exact absurd hseq (by decide)
        · rintro ⟨-, -, rec', hrec', -, hage', -⟩
          rw [hfind] at hrec'
          cases hrec'
          exact hage' hage
      · refine iff_of_true ⟨r', hr', fun _ => ?_, fun hno => ?_⟩
          ⟨hexpire, hpre, rec, hfind, hmax, hage, hnewer, hlate⟩
        · rw [hheader]
          exact ⟨rfl, rfl⟩
        · exact absurd ⟨rec, hfind, hmax, hage⟩ hno
    · refine iff_of_false (not_reoriginated (Or.inr ⟨rec, r', hfind, hr', hheader⟩)) ?_
      rintro ⟨-, hpre, rec', hrec', -, -, hnewer, hlate⟩
      rw [hfind] at hrec'
      cases hrec'
      exact hnot ⟨hpre, hnewer, hlate⟩
  · obtain ⟨hl', hagree', hkeeps⟩ := processLsaConst_keeps o.area o.policy
      (o.nextContext key (s.area.db.find key) info) now hl hagree rfl info.body
    have hkey : (o.nextContext key (s.area.db.find key) info).key = key := rfl
    rw [hkey] at hkeeps
    rw [processReoriginatedLsa_area info now hroll]
    refine ⟨hl', hagree', iff_of_false (not_reoriginated ?_) ?_⟩
    · rcases hkeeps with hnone | ⟨r, r', hr, hr', hheader, -⟩
      · exact Or.inl hnone
      · exact Or.inr ⟨r, r', hr, hr', hheader⟩
    · rintro ⟨hexpire, -, rec, hfind, hmax, -⟩
      exact hroll (rollsOver_iff.2 ⟨hexpire, rec, hfind, hmax⟩)

theorem runReorigination_of_entry {info : OriginationInfo Body}
    (hinfo : s.originationState.lookup key = some info) (now : ℕ) :
    (o.runReorigination key s now).area = (o.processReoriginatedLsa key s info now).area ∧
    (o.runReorigination key s now).last = s.last ∧
    ∀ info', (o.runReorigination key s now).originationState.lookup key = some info' →
      info'.body = info.body ∧ info'.expire = info.expire ∧ info'.throttleInfo.pending = false := by
  have hlast : (o.processReoriginatedLsa key s info now).last = s.last := by
    rw [processReoriginatedLsa]
    dsimp only
    split_ifs <;> rfl
  have hstate : (o.processReoriginatedLsa key s info now).originationState = s.originationState ∨
      (o.processReoriginatedLsa key s info now).originationState = s.originationState.erase key := by
    rw [processReoriginatedLsa]
    dsimp only
    split_ifs
    · exact Or.inr rfl
    · exact Or.inr rfl
    · exact Or.inl rfl
  rw [runReorigination, hinfo]
  rcases hstate with hstate | hstate
  · simp only [hstate, hinfo, lookup_insert_eq, if_true, hlast, true_and]
    rintro info' ⟨⟩
    exact ⟨rfl, rfl, rfl⟩
  · simp only [hstate, lookup_erase_eq, if_true, hlast, true_and]
    rintro info' ⟨⟩

theorem step_fire {t : ℕ} {ts : List ℕ} {now : ℕ} (htimers : s.timers = t :: ts) (hdue : t ≤ now) :
    o.step key s (.fire now) = o.runReorigination key { s with timers := ts } now := by
  simp only [step, htimers, if_pos hdue]

theorem step_fire_none {now : ℕ} (h : ¬ ∃ t ts, s.timers = t :: ts ∧ t ≤ now) :
    o.step key s (.fire now) = s := by
  rw [step]
  split
  · rfl
  · rename_i t ts htimers
    exact if_neg fun hdue => h ⟨t, ts, htimers, hdue⟩

/-- **One event**, from a state that meets the invariant. -/
theorem Sound.step (h : Sound key s) (e : Event Body) :
    Sound key (o.step key s e) ∧ (o.Lawful key s e ↔ o.Flushes key s e) := by
  cases e with
  | originate body expire now =>
    have hkept := h.originateLsa (o := o) body expire now
    refine ⟨⟨h.linked, h.agree, fun info hinfo => ?_, fun _ _ _ => hkept.2⟩, iff_of_true hkept trivial⟩
    obtain ⟨⟨info', hinfo', hbody, hexpire⟩, -⟩ := hkept
    have heq : some info = some info' := hinfo.symm.trans hinfo'
    cases heq
    rw [hbody, hexpire]
    rfl
  | fire now =>
    by_cases hfires : ∃ t ts, s.timers = t :: ts ∧ t ≤ now
    · obtain ⟨t, ts, htimers, hdue⟩ := hfires
      cases hinfo : s.originationState.lookup key with
      | none =>
        have hno (info : OriginationInfo Body) : ¬ Finds key s now info := by
          rintro ⟨-, hfound⟩
          rw [hinfo] at hfound
          cases hfound
        have hstep : o.step key s (.fire now) = { s with timers := ts } := by
          rw [step_fire htimers hdue, runReorigination, hinfo]
        rw [hstep]
        refine ⟨⟨h.linked, h.agree, h.last, fun info hfound => ?_⟩, iff_of_true
          (fun info hfinds => absurd hfinds (hno info)) (fun info hfinds => absurd hfinds (hno info))⟩
        rw [hinfo] at hfound
        cases hfound
      | some info =>
        have hinfo' : ({ s with timers := ts } : OriginatorState Body).originationState.lookup key =
          some info := hinfo
        obtain ⟨harea, hlast, hentry⟩ := runReorigination_of_entry (o := o) hinfo' now
        have hspec := processReoriginatedLsa_spec key (o := o) (s := { s with timers := ts }) h.linked
          h.agree info now
        rw [← harea, ← step_fire htimers hdue] at hspec
        rw [← step_fire htimers hdue] at hlast hentry
        obtain ⟨hl, hagree, hiff⟩ := hspec
        refine ⟨⟨hl, hagree, fun info' hfound => ?_, fun info' hfound hpending => ?_⟩, ?_⟩
        · obtain ⟨hbody, hexpire, -⟩ := hentry info' hfound
          rw [hlast, hbody, hexpire]
          exact h.last info hinfo
        · rw [(hentry info' hfound).2.2] at hpending
          cases hpending
        · constructor
          · intro hlawful info' hfinds
            obtain ⟨body, expire, hcall, hre⟩ := hlawful info' hfinds
            have heq : some info' = some info := hfinds.2.symm.trans hinfo
            cases heq
            rw [h.last info hinfo] at hcall
            cases hcall
            exact hiff.1 hre
          · intro hflushes info' hfinds
            have heq : some info' = some info := hfinds.2.symm.trans hinfo
            cases heq
            exact ⟨info.body, info.expire, h.last info hinfo, hiff.2 (hflushes info hfinds)⟩
    · rw [step_fire_none hfires]
      exact ⟨h, iff_of_true (fun info hfinds => absurd hfinds.1 hfires)
        (fun info hfinds => absurd hfinds.1 hfires)⟩

/-! ## Runs -/

omit [Inhabited Body] in
theorem sound_idle {db : LsdbTable Body} (hl : db.Linked) (hagree : db.Agree) :
    Sound key ({ area := { db } } : OriginatorState Body) where
  linked := hl
  agree := hagree
  last := by rintro info ⟨⟩
  timers := by rintro info ⟨⟩

end

/-! ## A router LSA -/

def plainOriginator : Originator (Option LsaBodyV2) where
  area := Area.plainArea .NORMAL
  policy := bodyPolicyV2
  flags := 0

def ownKey : LsaKey := ⟨⟨1, 9⟩, 9⟩

def ownBody : Option LsaBodyV2 := some (.router ⟨0, []⟩)

def lastInstance : LsdbTable (Option LsaBodyV2) :=
  ({} : LsdbTable (Option LsaBodyV2)).upsertBody
    { key := ownKey, header := { sequence := OSPF_MAX_SEQUENCE } } 0 0 ownBody

end Originator

end VirtualRouter.Ospf
