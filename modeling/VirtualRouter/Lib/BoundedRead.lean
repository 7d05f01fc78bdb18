/-
  Reading a span of bytes with its bounds.

  `readAt oob l i n f` reads the `n` bytes at offset `i` of the span `l`, and
  `subspan oob l off len` forms the span of `len` bytes at `off`; a program stops
  with `oob` where one of them leaves `l`.  A program that never stops with
  `oob` stays in bounds, and one that does shows where it leaves them.

  * `readAt_ok`, `subspan_ok`, `readMany_ok`: what is inside is read;
  * `readMany_oob`: a loop over entries stops if the last one is not inside;
  * `readMany_holds`: a loop over entries reads what was written there;
  * `holds_drop`, `drop_of_drop`: what was written at a position, and behind it;
  * `Inside`: a program stays in bounds, with a rule for each way to compose it;
  * `Yields`: what a program returns satisfies a predicate, with the same rules.
-/
import VirtualRouter.Lib.Bytes

namespace Bytes

variable {ε α β : Type} {oob : ε} {l : List UInt8} {i n off len size pos : ℕ} {f : BytePtr → α}

@[simp] theorem ok_bind (a : α) (f : α → Except ε β) : (Except.ok a >>= f) = f a := rfl

@[simp] theorem error_bind (e : ε) (f : α → Except ε β) : (Except.error e >>= f) = Except.error e := rfl

theorem bind_eq_ok {x : Except ε α} {f : α → Except ε β} {b : β} :
    (x >>= f) = .ok b ↔ ∃ a, x = .ok a ∧ f a = .ok b := by
  cases x <;> simp

theorem bind_eq_error {x : Except ε α} {f : α → Except ε β} {e : ε} :
    (x >>= f) = .error e ↔ x = .error e ∨ ∃ a, x = .ok a ∧ f a = .error e := by
  cases x <;> simp

/-- `n` bytes at offset `i` of the span `l`, read by `f`. -/
def readAt (oob : ε) (l : List UInt8) (i n : ℕ) (f : BytePtr → α) : Except ε α :=
  if i + n ≤ l.length then .ok (f ((ofList l).add i)) else .error oob

def subspan (oob : ε) (l : List UInt8) (off len : ℕ) : Except ε (List UInt8) :=
  if off + len ≤ l.length then .ok ((l.drop off).take len) else .error oob

/-- A loop that reads `n` entries of `size` bytes from `pos` on. -/
def readMany (rd : ℕ → Except ε α) (size : ℕ) : ℕ → ℕ → Except ε (List α)
  | 0, _ => .ok []
  | n + 1, pos => do
    let a ← rd pos
    let as ← readMany rd size n (pos + size)
    return a :: as

theorem readAt_ok (h : i + n ≤ l.length) : readAt oob l i n f = .ok (f ((ofList l).add i)) := if_pos h

theorem readAt_oob (h : l.length < i + n) : readAt oob l i n f = .error oob := if_neg (by omega)

theorem subspan_ok (h : off + len ≤ l.length) :
    subspan oob l off len = .ok ((l.drop off).take len) := if_pos h

theorem subspan_oob (h : l.length < off + len) : subspan oob l off len = .error oob :=
  if_neg (by omega)

theorem readMany_ok (h : pos + n * size ≤ l.length) :
    readMany (fun i => readAt oob l i size f) size n pos =
      .ok ((List.range n).map fun i => f ((ofList l).add (pos + i * size))) := by
  induction n generalizing pos with
  | zero => rfl
  | succ n ih =>
    rw [Nat.succ_mul] at h
    have hrest := ih (show pos + size + n * size ≤ l.length by omega)
    rw [readMany, readAt_ok (show pos + size ≤ l.length by omega), ok_bind, hrest, ok_bind,
      List.range_succ_eq_map, List.map_cons, List.map_map, Nat.zero_mul, Nat.add_zero]
    have hshift : ∀ i, pos + size + i * size = pos + (i + 1) * size := by
      intro i
      rw [Nat.succ_mul]
      omega
    simp only [hshift]
    rfl

theorem readMany_oob (hn : 0 < n) (h : l.length < pos + n * size) :
    readMany (fun i => readAt oob l i size f) size n pos = .error oob := by
  induction n generalizing pos with
  | zero => omega
  | succ n ih =>
    rw [Nat.succ_mul] at h
    rw [readMany]
    by_cases hfirst : pos + size ≤ l.length
    · -- the first entry is inside, so that a later one is not
      have hpos : 0 < n := by
        rcases Nat.eq_zero_or_pos n with rfl | hpos
        · omega
        · exact hpos
      rw [readAt_ok hfirst, ok_bind, ih hpos (by omega), error_bind]
    · rw [readAt_oob (by omega), error_bind]

theorem readMany_holds {enc : β → List UInt8} {g : β → α} (hsize : ∀ x, (enc x).length = size)
    (hread : ∀ x p, Holds p (enc x) → f p = g x) : ∀ {xs : List β} {pos : ℕ},
    Holds ((ofList l).add pos) (xs.flatMap enc) → pos + xs.length * size ≤ l.length →
    readMany (fun i => readAt oob l i size f) size xs.length pos = .ok (xs.map g)
  | [], _, _, _ => rfl
  | x :: xs, pos, hhold, hlen => by
    rw [List.flatMap_cons] at hhold
    obtain ⟨hx, hxs⟩ := holds_append.mp hhold
    rw [add_add, hsize] at hxs
    rw [List.length_cons, Nat.succ_mul] at hlen
    have hrest := readMany_holds hsize hread hxs (by omega)
    rw [List.length_cons, readMany, readAt_ok (by omega), ok_bind, hrest, ok_bind, hread x _ hx]
    rfl

theorem readMany_length {rd : ℕ → Except ε α} : ∀ {n pos : ℕ} {as : List α},
    readMany rd size n pos = .ok as → as.length = n
  | 0, _, _, h => by
    obtain rfl := Except.ok.inj h
    rfl
  | n + 1, pos, _, h => by
    rw [readMany] at h
    obtain ⟨a, -, h⟩ := bind_eq_ok.mp h
    obtain ⟨as, hrest, h⟩ := bind_eq_ok.mp h
    obtain rfl := Except.ok.inj h
    rw [List.length_cons, readMany_length hrest]

/-! ## Reading what was written at a position -/

section
variable {v rest : List UInt8}

theorem holds_drop (h : l.drop pos = v ++ rest) : Holds ((ofList l).add pos) v := by
  intro i hi
  have hget : (l.drop pos)[i]? = (v ++ rest)[i]? := by rw [h]
  rw [List.getElem?_drop, List.getElem?_append_left hi] at hget
  simp only [add_apply, ofList, List.getD, hget]

theorem le_of_drop (h : l.drop pos = v ++ rest) (hv : 0 < v.length) : pos + v.length ≤ l.length := by
  have hlen := congrArg List.length h
  simp only [List.length_drop, List.length_append] at hlen
  omega

theorem drop_of_drop (h : l.drop pos = v ++ rest) : l.drop (pos + v.length) = rest := by
  rw [← List.drop_drop, h, List.drop_left]

theorem subspan_drop (h : l.drop pos = v ++ rest) (hv : pos + v.length ≤ l.length) :
    subspan oob l pos v.length = .ok v := by
  rw [subspan_ok hv, h, List.take_left]

end

/-! ## Programs that stay in bounds -/

def Inside (oob : ε) (x : Except ε α) : Prop := x ≠ .error oob

@[simp] theorem inside_ok (a : α) : Inside oob (.ok a) := by simp [Inside]

@[simp] theorem inside_pure (a : α) : Inside oob (pure a : Except ε α) := inside_ok a

theorem inside_error {e : ε} : Inside oob (.error e : Except ε α) ↔ e ≠ oob := by simp [Inside]

theorem Inside.bind {x : Except ε α} {f : α → Except ε β} (hx : Inside oob x)
    (hf : ∀ a, x = .ok a → Inside oob (f a)) : Inside oob (x >>= f) := by
  intro h
  rcases bind_eq_error.mp h with h | ⟨a, ha, h⟩
  · exact hx h
  · exact hf a ha h

theorem Inside.ite {c : Prop} [Decidable c] {x y : Except ε α} (hx : c → Inside oob x)
    (hy : ¬ c → Inside oob y) : Inside oob (if c then x else y) := by
  split_ifs with h
  · exact hx h
  · exact hy h

theorem inside_readAt (h : i + n ≤ l.length) : Inside oob (readAt oob l i n f) := by
  rw [readAt_ok h]
  exact inside_ok _

theorem inside_subspan (h : off + len ≤ l.length) : Inside oob (subspan oob l off len) := by
  rw [subspan_ok h]
  exact inside_ok _

/-! ## Programs that return what they should -/

/-- What the program returns, if it returns, satisfies `P`. -/
def Yields (x : Except ε α) (P : α → Prop) : Prop := ∀ a, x = .ok a → P a

section
variable {P : α → Prop} {Q : β → Prop}

theorem yields_ok {a : α} (h : P a) : Yields (.ok a : Except ε α) P := by
  intro b hb
  obtain rfl := Except.ok.inj hb
  exact h

theorem yields_error {e : ε} : Yields (.error e : Except ε α) P := by
  intro b hb
  cases hb

theorem Yields.bind {x : Except ε α} {f : α → Except ε β} (h : ∀ a, x = .ok a → Yields (f a) Q) :
    Yields (x >>= f) Q := by
  intro b hb
  obtain ⟨a, ha, hb⟩ := bind_eq_ok.mp hb
  exact h a ha b hb

theorem Yields.ite {c : Prop} [Decidable c] {x y : Except ε α} (hx : c → Yields x P)
    (hy : ¬ c → Yields y P) : Yields (if c then x else y) P := by
  split_ifs with h
  · exact hx h
  · exact hy h

end

end Bytes
