/-
  Programs that check a length block by block.

  A reader or a writer goes through a buffer in blocks.  Before each one it may
  compare the size that it was told with what the block needs, and it stops if
  that is too little; a block that goes on uses the buffer up to `last`, of which
  `room` bytes are there.  `Follows oob R size room bs x Q` says that the program
  `x` goes through the blocks `bs` and ends with a value of `Q`, or stops with an
  error of `R` at a check.

  * `Follows.bind`: programs in sequence go through their blocks in sequence;
  * `Follows.inside_iff`: the program stays in bounds iff every block that it
    reaches and that passes its check ends inside the room.
-/
import VirtualRouter.Lib.BoundedRead

namespace Bytes

structure Block where
  check : ℕ
  last : ℕ
  deriving DecidableEq, Repr

/-- Every block that is reached and passes its check ends inside the room. -/
def Fits (size room : ℕ) : List Block → Prop
  | [] => True
  | b :: bs => b.check ≤ size → b.last ≤ room ∧ Fits size room bs

def Passes (size : ℕ) (bs : List Block) : Prop := ∀ b ∈ bs, b.check ≤ size

instance decidableFits (size room : ℕ) : ∀ bs : List Block, Decidable (Fits size room bs)
  | [] => isTrue trivial
  | b :: bs =>
    have := decidableFits size room bs
    inferInstanceAs (Decidable (b.check ≤ size → b.last ≤ room ∧ Fits size room bs))

instance (size : ℕ) (bs : List Block) : Decidable (Passes size bs) :=
  inferInstanceAs (Decidable (∀ b ∈ bs, b.check ≤ size))

variable {ε α β : Type} {oob : ε} {R : ε → Prop} {size room : ℕ} {bs cs : List Block} {b : Block}

/-- The program goes through the blocks and ends with a value of `Q`; it stops with an error of `R`
    at a check. -/
def Follows (oob : ε) (R : ε → Prop) (size room : ℕ) : List Block → Except ε α → (α → Prop) → Prop
  | [], x, Q => ∃ a, x = .ok a ∧ Q a
  | b :: bs, x, Q =>
    (size < b.check ∧ ∃ e, R e ∧ x = .error e) ∨
    (b.check ≤ size ∧ room < b.last ∧ x = .error oob) ∨
    (b.check ≤ size ∧ b.last ≤ room ∧ Follows oob R size room bs x Q)

section
variable {x : Except ε α} {f : α → Except ε β} {Q : α → Prop} {Q' : β → Prop}

theorem follows_ok {a : α} (h : Q a) : Follows oob R size room [] (.ok a : Except ε α) Q := ⟨a, rfl, h⟩

theorem Follows.refuse {e : ε} (hlt : size < b.check) (he : R e) :
    Follows oob R size room (b :: bs) (.error e : Except ε α) Q := .inl ⟨hlt, e, he, rfl⟩

theorem Follows.leave (hle : b.check ≤ size) (hlt : room < b.last) :
    Follows oob R size room (b :: bs) (.error oob : Except ε α) Q := .inr (.inl ⟨hle, hlt, rfl⟩)

theorem Follows.pass (hle : b.check ≤ size) (hlast : b.last ≤ room)
    (h : Follows oob R size room bs x Q) : Follows oob R size room (b :: bs) x Q :=
  .inr (.inr ⟨hle, hlast, h⟩)

/-- **Programs in sequence.** -/
theorem Follows.bind : ∀ {bs : List Block}, Follows oob R size room bs x Q →
    (∀ a, Q a → Follows oob R size room cs (f a) Q') → Follows oob R size room (bs ++ cs) (x >>= f) Q'
  | [], ⟨a, hx, ha⟩, hf => by
    subst hx
    exact hf a ha
  | _ :: _, .inl ⟨hlt, e, he, hx⟩, _ => by
    subst hx
    exact Follows.refuse hlt he
  | _ :: _, .inr (.inl ⟨hle, hlt, hx⟩), _ => by
    subst hx
    exact Follows.leave hle hlt
  | _ :: _, .inr (.inr ⟨hle, hlast, h⟩), hf => Follows.pass hle hlast (Follows.bind h hf)

theorem Follows.bind_ok {g : α → β} (h : Follows oob R size room bs x Q) (hg : ∀ a, Q a → Q' (g a)) :
    Follows oob R size room bs (x >>= fun a => .ok (g a)) Q' := by
  rw [← List.append_nil bs]
  exact h.bind fun a ha => follows_ok (hg a ha)

/-- A part without a check belongs to the block before it. -/
theorem Follows.merge {c a n : ℕ} (han : a ≤ n)
    (h : Follows oob R size room (⟨c, a⟩ :: ⟨0, n⟩ :: bs) x Q) :
    Follows oob R size room (⟨c, n⟩ :: bs) x Q := by
  rcases h with ⟨hlt, e, he, rfl⟩ | ⟨hle, hlt, rfl⟩ | ⟨hle, -, h⟩
  · exact Follows.refuse hlt he
  · exact Follows.leave hle (hlt.trans_le han)
  · rcases h with ⟨hlt, -⟩ | ⟨-, hlt, rfl⟩ | ⟨-, hlast, h⟩
    · exact absurd hlt (Nat.not_lt_zero _)
    · exact Follows.leave hle hlt
    · exact Follows.pass hle hlast h

theorem Follows.absorb {c a n : ℕ} (han : n ≤ a)
    (h : Follows oob R size room (⟨c, a⟩ :: ⟨0, n⟩ :: bs) x Q) :
    Follows oob R size room (⟨c, a⟩ :: bs) x Q := by
  rcases h with h | h | ⟨hle, hlast, ⟨hlt, -⟩ | ⟨-, hlt, -⟩ | ⟨-, -, h⟩⟩
  · exact .inl h
  · exact .inr (.inl h)
  · exact absurd hlt (Nat.not_lt_zero _)
  · exact absurd hlt (not_lt.mpr (han.trans hlast))
  · exact Follows.pass hle hlast h

/-- A check and parts without one, of which the last ends the block. -/
theorem Follows.within {c n : ℕ} : ∀ (lasts : List ℕ), (∀ a ∈ lasts, a ≤ n) → ∀ {k : ℕ}, k ≤ n →
    Follows oob R size room (⟨c, k⟩ :: (lasts.map (Block.mk 0) ++ [⟨0, n⟩])) x Q →
    Follows oob R size room [⟨c, n⟩] x Q
  | [], _, _, hk, h => h.merge hk
  | a :: lasts, hle, k, hk, h => by
    by_cases hka : k ≤ a
    · exact Follows.within lasts (fun b hb => hle b (List.mem_cons_of_mem _ hb)) (hle a (by simp))
        (h.merge hka)
    · exact Follows.within lasts (fun b hb => hle b (List.mem_cons_of_mem _ hb)) hk
        (h.absorb (not_le.mp hka).le)

theorem follows_check {n : ℕ} {e : ε} (he : R e) :
    Follows oob R size room [⟨n, 0⟩] (if n > size then .error e else .ok ()) fun _ => True := by
  split_ifs with h
  · exact Follows.refuse h he
  · exact Follows.pass (not_lt.mp h) (Nat.zero_le _) (follows_ok trivial)

/-- **The exact condition**: the program stays in bounds iff its blocks fit. -/
theorem Follows.inside_iff (hR : ∀ e, R e → e ≠ oob) : ∀ {bs : List Block},
    Follows oob R size room bs x Q → (Inside oob x ↔ Fits size room bs)
  | [], ⟨a, hx, _⟩ => by
    subst hx
    exact iff_of_true (inside_ok a) trivial
  | b :: bs, .inl ⟨hlt, e, he, hx⟩ => by
    subst hx
    refine iff_of_true (inside_error.mpr (hR e he)) fun hle => ?_
    omega
  | b :: bs, .inr (.inl ⟨hle, hlt, hx⟩) => by
    subst hx
    refine iff_of_false (fun h => h rfl) fun h => ?_
    have := (h hle).1
    omega
  | b :: bs, .inr (.inr ⟨hle, hlast, h⟩) => by
    rw [Follows.inside_iff hR h]
    exact ⟨fun h _ => ⟨hlast, h⟩, fun h => (h hle).2⟩

theorem Follows.ok_or_refused : ∀ {bs : List Block}, Follows oob R size room bs x Q →
    Fits size room bs →
    (Passes size bs ∧ ∃ a, x = .ok a ∧ Q a) ∨ (¬ Passes size bs ∧ ∃ e, R e ∧ x = .error e)
  | [], h, _ => .inl ⟨by simp [Passes], h⟩
  | b :: bs, .inl ⟨hlt, e, he, hx⟩, _ => by
    refine .inr ⟨fun h => ?_, e, he, hx⟩
    have := h b (by simp)
    omega
  | b :: bs, .inr (.inl ⟨hle, hlt, _⟩), hfit => by
    have := (hfit hle).1
    omega
  | b :: bs, .inr (.inr ⟨hle, _, h⟩), hfit => by
    rcases Follows.ok_or_refused h (hfit hle).2 with ⟨hpass, hx⟩ | ⟨hpass, hx⟩
    · exact .inl ⟨List.forall_mem_cons.mpr ⟨hle, hpass⟩, hx⟩
    · exact .inr ⟨fun h => hpass fun c hc => h c (List.mem_cons_of_mem _ hc), hx⟩

theorem Fits.last_le : ∀ {bs : List Block}, Fits size room bs → Passes size bs → ∀ b ∈ bs, b.last ≤ room
  | [], _, _ => by simp
  | b :: bs, hfit, hpass => by
    obtain ⟨hb, hrest⟩ := hfit (hpass b (by simp))
    refine List.forall_mem_cons.mpr ⟨hb, Fits.last_le hrest fun c hc => ?_⟩
    exact hpass c (List.mem_cons_of_mem _ hc)

theorem Passes.fits_iff (hpass : Passes size bs) :
    Fits size room bs ↔ ∀ b ∈ bs, b.last ≤ room := by
  refine ⟨fun hfit => hfit.last_le hpass, fun h => ?_⟩
  induction bs with
  | nil => trivial
  | cons b bs ih =>
    rw [List.forall_mem_cons] at h
    exact fun _ => ⟨h.1, ih (fun c hc => hpass c (List.mem_cons_of_mem _ hc)) h.2⟩

theorem follows_readAt {l : List UInt8} {i n : ℕ} {g : BytePtr → α} (hg : Q (g ((ofList l).add i))) :
    Follows oob R l.length l.length [⟨0, i + n⟩] (readAt oob l i n g) Q := by
  by_cases h : i + n ≤ l.length
  · rw [readAt_ok h]
    exact Follows.pass (Nat.zero_le _) h (follows_ok hg)
  · rw [readAt_oob (not_le.mp h)]
    exact Follows.leave (Nat.zero_le _) (not_le.mp h)

end

end Bytes
