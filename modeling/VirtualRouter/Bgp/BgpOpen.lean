/-
  The handler of OPEN messages (`BgpRx::processOpen`).

  `readOpen` is the part in front of the optional parameters, `parseParameters`
  the loop over them and `acceptOpen` what follows, in which the connection and
  the AS number are checked.  The `error` argument of the source is the
  notification of the result.

  * `resolveMultiSessionAf_eq_none`: no family is ever resolved, so that an OPEN
    on a connection of a child session is refused and the connection closed;
  * `processOpen_own`: an OPEN on a connection of the session is refused.
-/
import VirtualRouter.Bgp.BgpTx
import VirtualRouter.Bgp.Framing

namespace VirtualRouter.Bgp

open Bytes Utils Run

def BGP_NOTIFICATION_OPEN_BAD_PEER_AS : UInt16 := 0x0202
def BGP_NOTIFICATION_OPEN_BAD_IDENTIFIER : UInt16 := 0x0203
def BGP_NOTIFICATION_OPEN_UNSUPPORTED_PARAMETER : UInt16 := 0x0204
def BGP_NOTIFICATION_OPEN_UNACCEPTABLE_HOLD : UInt16 := 0x0206

/-! ## The fixed part -/

/-- A BGP identifier that is refused: zero, all ones or a multicast address. -/
def badIdentifier (peerRid : UInt32) : Bool :=
  let ridFirstOctet := (peerRid >>> 24).toUInt8
  peerRid = 0 || peerRid = 0xFFFFFFFF || (ridFirstOctet ≥ 224 && ridFirstOctet ≤ 239)

def badHoldTime (peerHold : UInt16) : Bool := peerHold = 1 || peerHold = 2

/-- The hold time of the session would be below the configured minimum. -/
def belowMinimum (s : Session) (peerHold : UInt16) : Bool :=
  match s.minimumHoldtime with
  | none => false
  | some minHt =>
    let negotiatedHold := if peerHold = 0 then 0 else min s.holdTime peerHold
    negotiatedHold ≠ 0 && negotiatedHold < minHt

/-- What `processOpen` reads in front of the parameters. -/
structure OpenHeader where
  peerRid : UInt32
  peerHold : UInt16
  peerAs2 : UInt16
  params : BytePtr
  paramLen : UInt16

/-- `processOpen` up to the parameters. -/
def readOpen (s : Session) (payload : List UInt8) : Except Notification OpenHeader :=
  if payload.length < openSize then .error ⟨BGP_NOTIFICATION_HEADER_BAD_MESSAGE_LENGTH, []⟩
  else
    let p := ofList payload
    let peerRid := readU32 (p.add 5)
    let peerHold := readU16 (p.add 3)
    let extendedParamLen := p 9 = 255 ∧ payload.length ≥ openSize + 2
    let paramLen := if extendedParamLen then readU16 (p.add 10) else (p 9).toUInt16
    let off := openSize + if extendedParamLen then 2 else 0
    if p 0 ≠ BGP_VERSION then
      .error ⟨BGP_NOTIFICATION_OPEN_UNSUPPORTED_VERSION, writeU16 BGP_VERSION.toUInt16⟩
    else if badIdentifier peerRid then .error ⟨BGP_NOTIFICATION_OPEN_BAD_IDENTIFIER, []⟩
    else if badHoldTime peerHold then .error ⟨BGP_NOTIFICATION_OPEN_UNACCEPTABLE_HOLD, []⟩
    else if belowMinimum s peerHold then .error ⟨BGP_NOTIFICATION_OPEN_UNACCEPTABLE_HOLD, []⟩
    else if off + paramLen.toNat ≠ payload.length then
      .error ⟨BGP_NOTIFICATION_OPEN_UNSUPPORTED_PARAMETER, []⟩
    else .ok ⟨peerRid, peerHold, readU16 (p.add 1), p.add off, paramLen⟩

/-! ## The parameters -/

/-- The loop over the parameters from `pos` on: the capabilities read, and whether it came to
    its end.  Each round moves `pos` by two or more. -/
def parseParametersFrom (params : BytePtr) (paramLen : ℕ) : ℕ → ℕ → Capabilities → Capabilities × Bool
  | 0, _, caps => (caps, true)
  | n + 1, pos, caps =>
    if pos + 2 ≤ paramLen then
      let pType := params pos
      let pLen := (params (pos + 1)).toNat
      if pos + 2 + pLen > paramLen then (caps, false)
      else
        parseParametersFrom params paramLen n (pos + (2 + pLen))
          (if pType = BGP_PARAMETER_CAPABILITY then
            parseCapabilities (params.add (pos + 2)) pLen caps else caps)
    else (caps, true)

def parseParameters (params : BytePtr) (paramLen : ℕ) : Capabilities × Bool :=
  parseParametersFrom params paramLen paramLen 0 {}

/-- The two families that `resolveMultiSessionAf` looks for. -/
structure MultiSessionAf where
  multiProtocol : Option AfiSafi := none
  multiSession : Option AfiSafi := none

/-- The `switch` of `resolveMultiSessionAf`; `none` is its `return std::nullopt`. -/
def resolveCapability (type : UInt8) (len : ℕ) (p : BytePtr) (af : MultiSessionAf) :
    Option MultiSessionAf :=
  if type = BGP_CAPABILITY_MULTIPROTOCOL then
    if len = 4 then
      if af.multiProtocol.isSome then none
      else some { af with multiProtocol := some ⟨readU16 p, p 3⟩ }
    else some af
  else if type = BGP_CAPABILITY_MULTI_SESSION then
    -- the source assigns `multiProtocol` here as well
    (List.range (len / 4)).foldlM (fun af i =>
      if af.multiSession.isSome then none
      else some { af with multiProtocol := some ⟨readU16 (p.add (4 * i)), p (4 * i + 2)⟩ }) af
  else some af

/-- The inner loop of `resolveMultiSessionAf`, which runs over all parameters each time. -/
def resolveCapabilities (data : BytePtr) (size : ℕ) : ℕ → ℕ → MultiSessionAf → Option MultiSessionAf
  | 0, _, af => some af
  | n + 1, idx, af =>
    if idx + 2 ≤ size then
      let len := (data (idx + 1)).toNat
      if idx + 2 + len > size then none
      else
        match resolveCapability (data idx) len (data.add (idx + 2)) af with
        | none => none
        | some af => resolveCapabilities data size n (idx + (2 + len)) af
    else some af

/-- The outer loop of `resolveMultiSessionAf`. -/
def resolveParameters (data : BytePtr) (size : ℕ) : ℕ → ℕ → MultiSessionAf → Option MultiSessionAf
  | 0, _, af => some af
  | n + 1, pos, af =>
    if pos + 2 ≤ size then
      let pLen := (data (pos + 1)).toNat
      if pos + 2 + pLen > size then none
      else if data pos = BGP_PARAMETER_CAPABILITY then
        match resolveCapabilities data size size 0 af with
        | none => none
        | some af => resolveParameters data size n (pos + (2 + pLen)) af
      else resolveParameters data size n (pos + (2 + pLen)) af
    else some af

def resolveMultiSessionAf (data : BytePtr) (size : ℕ) : Option AfiSafi :=
  match resolveParameters data size size 0 {} with
  | none => none
  | some af =>
    if af.multiProtocol.isSome ∧ af.multiSession.isSome ∧ af.multiProtocol = af.multiSession then
      af.multiSession
    else none

/-! ## The handler -/

/-- The AS number of the peer. -/
def resolvedAs (caps : Capabilities) (peerAs2 : UInt16) : UInt32 :=
  if caps.asn32bit then caps.asn
  else if peerAs2 = kAsTrans.toUInt16 then kAsTrans
  else peerAs2.toUInt32

/-- The AS number is another one than configured; zero stands for any. -/
def badPeerAs (s : Session) (resolvedAs : UInt32) : Bool :=
  match s.remoteAs with
  | none => false
  | some cfgAs => cfgAs ≠ 0 && resolvedAs ≠ cfgAs

/-- `processOpen` from the parameters on. -/
def acceptOpen (F : CapabilityFns) (s : Session) (cid : UInt64) (open_ : OpenHeader) : Handled Session :=
  let r := parseParameters open_.params open_.paramLen.toNat
  let s := { s with peerCaps := r.1 }
  if r.2 = false then ⟨s, false, ⟨BGP_NOTIFICATION_OPEN_UNSUPPORTED_PARAMETER, []⟩⟩
  else if s.verifyConnection cid then ⟨s, false, {}⟩
  else if badPeerAs s (resolvedAs s.peerCaps open_.peerAs2) then
    ⟨s, false, ⟨BGP_NOTIFICATION_OPEN_BAD_PEER_AS, []⟩⟩
  else
    let s := { s with holdTime := open_.peerHold, peerRouterId := open_.peerRid }
    ⟨(s.negotiateCapabilities F).onOpenReceived, true, {}⟩

/-- `processOpen`.  A multi-session takes an OPEN on another than the primary connection as one
    for a child session. -/
def processOpen (F : CapabilityFns) (s : Session) (cid : UInt64) (payload : List UInt8) :
    Handled Session :=
  match readOpen s payload with
  | .error error => ⟨s, false, error⟩
  | .ok open_ =>
    match s.getMultiSession with
    | none => acceptOpen F s cid open_
    | some ms =>
      if s.primaryConn = some cid then acceptOpen F s cid open_
      else
        match resolveMultiSessionAf open_.params open_.paramLen.toNat with
        | none => ⟨{ s with multiSession := .inr (ms.close cid) }, false, {}⟩
        -- the child session of the family would go on here; there never is one
        | some _ => acceptOpen F s cid open_

/-! ## Multi-session -/

theorem resolveCapability_multiSession {type : UInt8} {len : ℕ} {p : BytePtr} {af af' : MultiSessionAf}
    (h : resolveCapability type len p af = some af') : af'.multiSession = af.multiSession := by
  unfold resolveCapability at h
  split_ifs at h
  · cases h; rfl
  · cases h; rfl
  · -- the rounds of the loop set the other family
    generalize List.range (len / 4) = rounds at h
    induction rounds generalizing af with
    | nil => cases h; rfl
    | cons i rounds ih =>
      rw [List.foldlM_cons] at h
      split_ifs at h
      · cases h
      · rw [Option.bind_eq_bind, Option.bind_some] at h
        have hrest := ih h
        exact hrest
  · cases h; rfl

theorem resolveCapabilities_multiSession {data : BytePtr} {size : ℕ} : ∀ {n idx : ℕ}
    {af af' : MultiSessionAf}, resolveCapabilities data size n idx af = some af' →
    af'.multiSession = af.multiSession
  | 0, _, _, _, h => by cases h; rfl
  | n + 1, idx, af, af', h => by
    rw [resolveCapabilities] at h
    split_ifs at h
    · dsimp only at h
      split_ifs at h
      split at h
      · cases h
      · rename_i af₁ h₁
        rw [resolveCapabilities_multiSession h, resolveCapability_multiSession h₁]
    · cases h; rfl

theorem resolveParameters_multiSession {data : BytePtr} {size : ℕ} : ∀ {n pos : ℕ}
    {af af' : MultiSessionAf}, resolveParameters data size n pos af = some af' →
    af'.multiSession = af.multiSession
  | 0, _, _, _, h => by cases h; rfl
  | n + 1, pos, af, af', h => by
    rw [resolveParameters] at h
    split at h
    · dsimp only at h
      split at h
      · cases h
      · split at h
        · split at h
          · cases h
          · rename_i af₁ h₁
            rw [resolveParameters_multiSession h, resolveCapabilities_multiSession h₁]
        · exact resolveParameters_multiSession h
    · cases h; rfl

theorem resolveMultiSessionAf_eq_none (data : BytePtr) (size : ℕ) :
    resolveMultiSessionAf data size = none := by
  unfold resolveMultiSessionAf
  split
  · rfl
  · rename_i af haf
    have hnone := resolveParameters_multiSession haf
    rw [if_neg]
    rintro ⟨-, hsome, -⟩
    rw [hnone] at hsome
    cases hsome

/-! ## Connections of the session -/

theorem acceptOpen_own (F : CapabilityFns) {s : Session} {cid : UInt64}
    (h : s.verifyConnection cid = true) (open_ : OpenHeader) :
    (acceptOpen F s cid open_).ok = false := by
  have hverify : ∀ caps, ({ s with peerCaps := caps } : Session).verifyConnection cid = true :=
    fun _ => h
  unfold acceptOpen
  dsimp only
  rw [if_pos (hverify _)]
  split_ifs <;> rfl

/-- **An OPEN on a connection of the session is refused**, whatever it says. -/
theorem processOpen_own (F : CapabilityFns) {s : Session} {cid : UInt64}
    (h : s.verifyConnection cid = true) (payload : List UInt8) :
    (processOpen F s cid payload).ok = false := by
  unfold processOpen
  split
  · rfl
  · split
    · exact acceptOpen_own F h _
    · rw [resolveMultiSessionAf_eq_none]
      split_ifs
      · exact acceptOpen_own F h _
      · rfl

end VirtualRouter.Bgp
