/-
  What `ChecksumFletcher` computes (`ospf/transmission/OspfFletcher.hpp`).

  Every way to feed it comes down to `add`, byte by byte in network order.  A step
  adds a byte to a sum below 255 and subtracts 255 at most once, which is enough
  also for the byte 255, and both sums stay far below 65536.

  * `FletcherCall`, `ChecksumFletcher.run`: the calls, and a fresh accumulator fed by them;
  * `ChecksumFletcher.run_eq`: the result depends on the bytes only;
  * `ChecksumFletcher.closedForm`: both sums in closed form.
-/
import VirtualRouter.Ospf.OspfFletcher

namespace VirtualRouter.Ospf

open Bytes Utils

inductive FletcherCall where
  | add (b : UInt8)
  | addU16 (b : UInt16)
  | addU24 (b : UInt32)
  | addU32 (b : UInt32)
  | addBytes (data : List UInt8)

/-- The bytes of a call, in network order; `addU24` takes the low 24 bits. -/
def FletcherCall.bytes : FletcherCall → List UInt8
  | add b => [b]
  | addU16 b => writeU16 b
  | addU24 b => writeU24 b
  | addU32 b => writeU32 b
  | addBytes data => data

namespace ChecksumFletcher

def addU24 (c : ChecksumFletcher) (b : UInt32) : ChecksumFletcher :=
  ((c.add ((b >>> 16) &&& 0xFF).toUInt8).add ((b >>> 8) &&& 0xFF).toUInt8).add (b &&& 0xFF).toUInt8

def step (c : ChecksumFletcher) : FletcherCall → ChecksumFletcher
  | .add b => c.add b
  | .addU16 b => c.addU16 b
  | .addU24 b => c.addU24 b
  | .addU32 b => c.addU32 b
  | .addBytes data => c.addBytes data

def run (calls : List FletcherCall) : ChecksumFletcher := calls.foldl step {}

theorem toUInt8_and16 (b : UInt16) : (b &&& 0xFF).toUInt8 = b.toUInt8 := by
  refine UInt8.toNat_inj.1 ?_
  rw [UInt16.toNat_toUInt8, UInt16.toNat_toUInt8, UInt16.toNat_and]
  have hmask : b.toNat &&& (255 : ℕ) = b.toNat % 2 ^ 8 := Nat.and_two_pow_sub_one_eq_mod b.toNat 8
  show (b.toNat &&& 255) % 2 ^ 8 = _
  rw [hmask, Nat.mod_mod]

theorem step_eq (c : ChecksumFletcher) (call : FletcherCall) : c.step call = c.addBytes call.bytes := by
  cases call with
  | add b => rfl
  | addU16 b =>
    rw [step, addU16, toUInt8_and16, toUInt8_and16]
    rfl
  | addU24 b =>
    rw [step, addU24, toUInt8_and, toUInt8_and, toUInt8_and]
    rfl
  | addU32 b => exact addU32_eq c b
  | addBytes data => rfl

/-- **The result depends on the bytes only.** -/
theorem run_eq (calls : List FletcherCall) :
    run calls = addBytes {} (calls.flatMap FletcherCall.bytes) := by
  have hfold : ∀ c : ChecksumFletcher,
      calls.foldl step c = c.addBytes (calls.flatMap FletcherCall.bytes) := by
    induction calls with
    | nil => exact fun _ => rfl
    | cons call calls ih =>
      intro c
      rw [List.foldl_cons, ih, step_eq, List.flatMap_cons, addBytes_append]
  exact hfold {}

/-- The additions of `add` do not wrap around. -/
def Exact (c : ChecksumFletcher) (b : UInt8) : Prop :=
  c.c0.toNat + b.toNat < 2 ^ 16 ∧ c.c1.toNat + (c.add b).c0.toNat < 2 ^ 16

theorem Reduced.exact {c : ChecksumFletcher} (hc : c.Reduced) (b : UInt8) : c.Exact b := by
  have hb := b.toNat_lt
  have h0 := hc.c0
  have h1 := hc.c1
  have hadd := (add_spec hc b).1.c0
  exact ⟨by omega, by omega⟩

theorem eq_mod_of_cast {m n : ℕ} (hm : m < 255) (h : (m : ZMod 255) = n) : m = n % 255 := by
  have hmod := (ZMod.natCast_eq_natCast_iff' m n 255).1 h
  rwa [Nat.mod_eq_of_lt hm] at hmod

structure ClosedForm (calls : List FletcherCall) (bs : List UInt8) : Prop where
  c0 : (run calls).c0.toNat = (∑ i : Fin bs.length, (bs.get i).toNat) % 255
  c1 : (run calls).c1.toNat = (∑ i : Fin bs.length, (bs.length - i) * (bs.get i).toNat) % 255
  reduced : (run calls).Reduced
  /-- No step overflows, and none leaves a sum that is not reduced. -/
  noWrap : ∀ fed b rest, bs = fed ++ b :: rest →
    (addBytes {} fed).Reduced ∧ (addBytes {} fed).Exact b
  /-- Other calls with the same bytes have the same result. -/
  split : ∀ calls', calls'.flatMap FletcherCall.bytes = bs → run calls' = run calls

/-- **The sums of a fresh accumulator**, however the bytes are fed. -/
theorem closedForm (calls : List FletcherCall) :
    ClosedForm calls (calls.flatMap FletcherCall.bytes) := by
  generalize hbs : calls.flatMap FletcherCall.bytes = bs
  have hrun : run calls = addBytes {} bs := by rw [run_eq, hbs]
  obtain ⟨hreduced, hsums⟩ := addBytes_spec reduced_zero bs
  have hres : residues bs = (bs.map UInt8.toNat).map (Nat.cast : ℕ → ZMod 255) := by
    rw [residues, List.map_map]
    rfl
  have hzero : ({} : ChecksumFletcher).sums = (0, 0) := rfl
  rw [Fletcher.feedAll_eq, hzero, hres, Fletcher.weighted_natCast, mul_zero, zero_add, zero_add,
    zero_add, ← Nat.cast_list_sum] at hsums
  obtain ⟨h0, h1⟩ := Prod.ext_iff.1 hsums
  constructor
  case c0 =>
    have hsum : ∑ i : Fin bs.length, (bs.get i).toNat = (bs.map UInt8.toNat).sum :=
      Fin.sum_univ_fun_getElem bs UInt8.toNat
    rw [hrun, hsum]
    exact eq_mod_of_cast hreduced.c0 h0
  case c1 =>
    rw [hrun, ← Fletcher.weighted_map_eq_sum]
    exact eq_mod_of_cast hreduced.c1 h1
  case reduced => rwa [hrun]
  case noWrap =>
    intro fed b rest _
    have hfed := (addBytes_spec reduced_zero fed).1
    exact ⟨hfed, hfed.exact b⟩
  case split =>
    intro calls' hcalls
    rw [hrun, run_eq, hcalls]

end ChecksumFletcher

end VirtualRouter.Ospf
