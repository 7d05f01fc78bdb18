/-
  The options of a DHCPv4 message (`packet/headers/DhcpHeader.hpp`).

  `parseDhcpOptions` reads every option as a type, a length and a value: a PAD
  and the END take a length byte as well, and the END is handed out with the
  options.  In an overloaded field the options stop at the first zero.

  * `parseOptionsFrom`, `parseDhcpOptions`: the parser, over positions in the span;
  * `scan`: what it finds, over the bytes that are left (`parseOptionsFrom_content`);
  * `Rfc2132`: the byte strings of the form that RFC 2132 defines, and
    `ReadsOptions`, what a parser owes them;
  * `readsOptions_iff`: the parser reads them only in an overloaded field, and there
    if the padding lies between the last option and the END.
-/
import Mathlib

namespace VirtualRouter.Dhcp

abbrev OptionContent := UInt8 × List UInt8

def DHCP_OPTION_PAD : UInt8 := 0x00
def DHCP_OPTION_END : UInt8 := 0xFF

/-- `packet::TLV8Option`; `value` is a position in the span. -/
structure TLV8Option where
  type : UInt8
  length : UInt8
  value : ℕ
  valueSize : ℕ
  deriving DecidableEq, Repr

namespace TLV8Option

def content (data : List UInt8) (o : TLV8Option) : OptionContent :=
  (o.type, (data.drop o.value).take o.valueSize)

def Inside (data : List UInt8) (o : TLV8Option) : Prop := o.value + o.valueSize ≤ data.length

end TLV8Option

/-- The loop of `parseDhcpOptions` from `offset` on: whether it accepts, and the options that it
    has put into `outOptions`, which stay there if it does not. -/
def parseOptionsFrom (data : List UInt8) (overload : Bool) (offset : ℕ) : Bool × List TLV8Option :=
  if h : offset + 2 ≤ data.length then
    let type := data[offset]
    let length := data[offset + 1]
    if overload ∧ type = 0x00 then (true, [])
    else if offset + 2 + length.toNat > data.length then (false, [])
    else
      let rest := parseOptionsFrom data overload (offset + 2 + length.toNat)
      (rest.1, ⟨type, length, offset + 2, length.toNat⟩ :: rest.2)
  else (offset == data.length, [])
termination_by data.length - offset

def parseDhcpOptions (data : List UInt8) (overload : Bool) : Bool × List TLV8Option :=
  parseOptionsFrom data overload 0

def contents (data : List UInt8) (r : Bool × List TLV8Option) : Bool × List OptionContent :=
  (r.1, r.2.map (TLV8Option.content data))

/-- **No option leaves the span**, whether the parse is accepted or not. -/
theorem parseOptionsFrom_inside (data : List UInt8) (overload : Bool) (offset : ℕ) :
    ∀ o ∈ (parseOptionsFrom data overload offset).2, o.Inside data := by
  fun_induction parseOptionsFrom data overload offset with
  | case1 => simp
  | case2 => simp
  | case3 offset h type length hpad hfits rest ih =>
    intro o ho
    rcases List.mem_cons.mp ho with rfl | ho
    · exact not_lt.mp hfits
    · exact ih o ho
  | case4 => simp

/-! ## What is found in the bytes that are left -/

/-- The options of a run of bytes, each with its value. -/
def scan (overload : Bool) : List UInt8 → Bool × List OptionContent
  | [] => (true, [])
  | [_] => (false, [])
  | type :: length :: bytes =>
    if overload ∧ type = 0x00 then (true, [])
    else if bytes.length < length.toNat then (false, [])
    else
      let rest := scan overload (bytes.drop length.toNat)
      (rest.1, (type, bytes.take length.toNat) :: rest.2)
termination_by bytes => bytes.length

theorem drop_eq_cons_cons {data : List UInt8} {offset : ℕ} (h : offset + 2 ≤ data.length) :
    data.drop offset = data[offset] :: data[offset + 1] :: data.drop (offset + 2) := by
  rw [List.drop_eq_getElem_cons (show offset < data.length by omega),
    List.drop_eq_getElem_cons (show offset + 1 < data.length by omega)]

theorem parseOptionsFrom_content (data : List UInt8) (overload : Bool) (offset : ℕ)
    (hoffset : offset ≤ data.length) :
    contents data (parseOptionsFrom data overload offset) = scan overload (data.drop offset) := by
  fun_induction parseOptionsFrom data overload offset with
  | case1 offset h type hpad =>
    rw [drop_eq_cons_cons h, scan, if_pos hpad]
    rfl
  | case2 offset h type length hpad hlong =>
    have hshort : (data.drop (offset + 2)).length < length.toNat := by
      rw [List.length_drop]
      omega
    rw [drop_eq_cons_cons h, scan, if_neg hpad, if_pos hshort]
    rfl
  | case3 offset h type length hpad hfits rest ih =>
    have hroom : ¬ (data.drop (offset + 2)).length < length.toNat := by
      rw [List.length_drop]
      omega
    have hrest := ih (not_lt.mp hfits)
    rw [drop_eq_cons_cons h, scan, if_neg hpad, if_neg hroom, List.drop_drop, ← hrest]
    rfl
  | case4 offset h =>
    rcases Nat.lt_or_ge offset data.length with hlt | hge
    · -- one byte is left, which is no option
      have hlast : data.drop offset = [data[offset]] := by
        rw [List.drop_eq_getElem_cons hlt, List.drop_of_length_le (by omega)]
      rw [hlast, scan]
      simp [contents, Nat.ne_of_lt hlt]
    · obtain rfl := le_antisymm hoffset hge
      rw [List.drop_length, scan]
      simp [contents]

theorem parseDhcpOptions_content (data : List UInt8) (overload : Bool) :
    contents data (parseDhcpOptions data overload) = scan overload data :=
  parseOptionsFrom_content data overload 0 (Nat.zero_le _)

section
variable {overload : Bool} {type length : UInt8} {value rest : List UInt8}

theorem scan_option (htype : ¬ (overload ∧ type = 0x00)) (hvalue : value.length = length.toNat) :
    scan overload (type :: length :: (value ++ rest)) =
      ((scan overload rest).1, (type, value) :: (scan overload rest).2) := by
  have hroom : ¬ (value ++ rest).length < length.toNat := by
    rw [List.length_append]
    omega
  rw [scan, if_neg htype, if_neg hroom, ← hvalue, List.drop_left, List.take_left]

theorem scan_overload_zero (h : rest ≠ []) : scan true (0x00 :: rest) = (true, []) := by
  obtain ⟨b, bytes, rfl⟩ := List.exists_cons_of_ne_nil h
  rw [scan, if_pos ⟨rfl, rfl⟩]

theorem scan_cons (htype : ¬ (overload ∧ type = 0x00)) {options : List OptionContent}
    (h : scan overload (type :: rest) = (true, options)) :
    ∃ value later, options = (type, value) :: later := by
  cases rest with
  | nil =>
    rw [scan] at h
    simp at h
  | cons length bytes =>
    rw [scan, if_neg htype] at h
    split_ifs at h with hlong
    · simp at h
    · exact ⟨_, _, (Prod.ext_iff.mp h).2.symm⟩

end

/-! ## The form of RFC 2132 -/

/-- PAD options of one byte and options with a length and a value, an END of one byte, and what
    pads the message behind it. -/
inductive Rfc2132 : List UInt8 → List OptionContent → Prop
  | endOption (padding : List UInt8) : Rfc2132 (DHCP_OPTION_END :: padding) []
  | pad {rest options} : Rfc2132 rest options → Rfc2132 (DHCP_OPTION_PAD :: rest) options
  | option {type length : UInt8} {value rest options} (hpad : type ≠ DHCP_OPTION_PAD)
      (hend : type ≠ DHCP_OPTION_END) (hvalue : value.length = length.toNat) :
      Rfc2132 rest options → Rfc2132 (type :: length :: (value ++ rest)) ((type, value) :: options)

inductive PaddedEnd : List UInt8 → Prop
  | pad {rest} : Rfc2132 rest [] → PaddedEnd (DHCP_OPTION_PAD :: rest)
  | option {type length : UInt8} {value rest} (hpad : type ≠ DHCP_OPTION_PAD)
      (hend : type ≠ DHCP_OPTION_END) (hvalue : value.length = length.toNat) :
      PaddedEnd rest → PaddedEnd (type :: length :: (value ++ rest))

theorem Rfc2132.ne_nil {data : List UInt8} {options : List OptionContent} (h : Rfc2132 data options) :
    data ≠ [] := by
  cases h <;> simp

theorem Rfc2132.type_ne_pad {data : List UInt8} {options : List OptionContent}
    (h : Rfc2132 data options) : ∀ o ∈ options, o.1 ≠ DHCP_OPTION_PAD := by
  induction h with
  | endOption => simp
  | pad _ ih => exact ih
  | option hpad _ _ _ ih =>
    intro o ho
    rcases List.mem_cons.mp ho with rfl | ho
    · exact hpad
    · exact ih o ho

theorem option_inj {type length type' length' : UInt8} {value value' rest rest' : List UInt8}
    (h : type :: length :: (value ++ rest) = type' :: length' :: (value' ++ rest'))
    (hvalue : value.length = length.toNat) (hvalue' : value'.length = length'.toNat) :
    value = value' ∧ rest = rest' := by
  simp only [List.cons.injEq] at h
  obtain ⟨-, rfl, h⟩ := h
  exact List.append_inj h (hvalue.trans hvalue'.symm)

/-- A byte string of the form has the options of one list only. -/
theorem Rfc2132.unique {data : List UInt8} {a b : List OptionContent} (ha : Rfc2132 data a)
    (hb : Rfc2132 data b) : a = b := by
  induction ha generalizing b with
  | endOption =>
    cases hb with
    | endOption => rfl
    | option _ hend => exact absurd rfl hend
  | pad _ ih =>
    cases hb with
    | pad hb => exact ih hb
    | option hpad => exact absurd rfl hpad
  | @option type length value rest options hpad hend hvalue _ ih =>
    generalize hdata : type :: length :: (value ++ rest) = data at hb
    cases hb with
    | endOption => exact absurd (List.cons.inj hdata).1 hend
    | pad => exact absurd (List.cons.inj hdata).1 hpad
    | @option type' length' value' rest' options' _ _ hvalue' hb =>
      obtain ⟨rfl, rfl⟩ := option_inj hdata hvalue hvalue'
      rw [ih hb, (List.cons.inj hdata).1]

theorem paddedEnd_option {type length : UInt8} {value rest : List UInt8}
    (hpad : type ≠ DHCP_OPTION_PAD) (hend : type ≠ DHCP_OPTION_END)
    (hvalue : value.length = length.toNat) :
    PaddedEnd (type :: length :: (value ++ rest)) ↔ PaddedEnd rest := by
  refine ⟨fun h => ?_, .option hpad hend hvalue⟩
  generalize hdata : type :: length :: (value ++ rest) = data at h
  cases h with
  | pad => exact absurd (List.cons.inj hdata).1 hpad
  | @option type' length' value' rest' _ _ hvalue' h =>
    obtain ⟨rfl, rfl⟩ := option_inj hdata hvalue hvalue'
    exact h

/-- The options are found in a byte string of the form exactly in an overloaded field with its
    padding behind the last option. -/
theorem Rfc2132.scan_iff {data : List UInt8} {options : List OptionContent} (overload : Bool)
    (h : Rfc2132 data options) :
    scan overload data = (true, options) ↔ overload = true ∧ PaddedEnd data := by
  induction h with
  | endOption padding =>
    constructor
    · -- the END would have to be an option
      intro hscan
      obtain ⟨value, later, hoptions⟩ := scan_cons (by simp [DHCP_OPTION_END]) hscan
      cases hoptions
    · rintro ⟨-, hpadded⟩
      cases hpadded with
      | option _ hend => exact absurd rfl hend
  | @pad rest options hrest ih =>
    cases overload with
    | false =>
      constructor
      · -- the PAD would have to be an option
        intro hscan
        obtain ⟨value, later, rfl⟩ := scan_cons (by simp) hscan
        exact absurd rfl (hrest.type_ne_pad _ List.mem_cons_self)
      · simp
    | true =>
      have hscan : scan true (DHCP_OPTION_PAD :: rest) = (true, []) := scan_overload_zero hrest.ne_nil
      constructor
      · intro h
        obtain rfl : [] = options := (Prod.ext_iff.mp (hscan.symm.trans h)).2
        exact ⟨rfl, .pad hrest⟩
      · rintro ⟨-, hpadded⟩
        cases hpadded with
        | pad hnone => rw [hscan, hrest.unique hnone]
        | option hpad => exact absurd rfl hpad
  | option hpad hend hvalue _ ih =>
    rw [scan_option (fun h => hpad h.2) hvalue, paddedEnd_option hpad hend hvalue, ← ih]
    simp [Prod.ext_iff]

/-- What the parser owes to the byte strings of RFC 2132, and to the others. -/
structure ReadsOptions (overload : Bool) (data : List UInt8) : Prop where
  recovers : ∀ options, Rfc2132 data options →
    contents data (parseDhcpOptions data overload) = (true, options)
  inside : (∀ options, ¬ Rfc2132 data options) → (parseDhcpOptions data overload).1 = true →
    ∀ o ∈ (parseDhcpOptions data overload).2, o.Inside data

/-- **The parser reads the form of RFC 2132 in an overloaded field only**, and there if the padding
    in front of the END begins behind the last option; whatever it is given, no option leaves the
    span. -/
theorem readsOptions_iff (overload : Bool) (data : List UInt8) :
    (∀ o ∈ (parseDhcpOptions data overload).2, o.Inside data) ∧
      (ReadsOptions overload data ↔
        ∀ options, Rfc2132 data options → overload = true ∧ PaddedEnd data) := by
  have hinside := parseOptionsFrom_inside data overload 0
  refine ⟨hinside, fun h options hform => ?_, fun h => ⟨fun options hform => ?_, fun _ _ => hinside⟩⟩
  · have hrecovers := h.recovers options hform
    rw [parseDhcpOptions_content] at hrecovers
    exact (hform.scan_iff overload).mp hrecovers
  · rw [parseDhcpOptions_content]
    exact (hform.scan_iff overload).mpr (h options hform)

/-- A DISCOVER with an END of one byte is rejected. -/
theorem rejects_end : ¬ ∀ data, ReadsOptions false data := by
  intro h
  have hform : Rfc2132 (0x35 :: 1 :: ([1] ++ [0xFF])) [(0x35, [1])] :=
    .option (by decide) (by decide) rfl (.endOption [])
  have hrecovers := (h [0x35, 1, 1, 0xFF]).recovers _ hform
  have hscan : scan false [0x35, 1, 1, 0xFF] = (false, [(0x35, [1])]) := by simp [scan]
  rw [parseDhcpOptions_content, hscan] at hrecovers
  cases hrecovers

end VirtualRouter.Dhcp
