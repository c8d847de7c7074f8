import MoonlightWii.Gamestream.Crypto

/-!
# What `hex_to_bytes` accepts (`client.c`)

The text must have an even number of characters, and those that are decoded must
lie between `0` and `f`.
-/

set_option autoImplicit false

namespace MoonlightWii.Gamestream.HexText

open MoonlightWii.Gamestream.Crypto
open MoonlightWii.Gamestream.Errors

def InTable (char : Char) : Prop := '0' ≤ char ∧ char ≤ 'f'

instance (char : Char) : Decidable (InTable char) :=
  inferInstanceAs (Decidable ('0' ≤ char ∧ char ≤ 'f'))

/-- `hex_to_bytes` stores the length of this text. -/
structure Decodes (text : CString) (maxlen : Nat) : Prop where
  even : text.length % 2 = 0
  inTable : ∀ char ∈ text.take (2 * maxlen), InTable char

theorem pair_refused_iff (high low : Char) :
    (high < '0' ∨ 'f' < high ∨ low < '0' ∨ 'f' < low) ↔ ¬ (InTable high ∧ InTable low) := by
  unfold InTable
  rw [← Char.not_le, ← Char.not_le, ← Char.not_le, ← Char.not_le]
  rw [not_and_or, not_and_or, not_and_or, or_assoc]

/-- Over whole pairs nothing is lost exactly when no pair is refused. -/
theorem decodePairs_spec (text : CString) (even : text.length % 2 = 0) :
    ((decodePairs text).2 = true ↔ ∀ char ∈ text, InTable char) ∧
      ((decodePairs text).2 = true → (decodePairs text).1.length = text.length / 2) ∧
      ((decodePairs text).2 = false → (decodePairs text).1.length < text.length / 2) := by
  induction text using decodePairs.induct with
  | case1 high low rest refused =>
      have outside := (pair_refused_iff high low).mp refused
      rw [decodePairs, if_pos refused]
      refine ⟨iff_of_false Bool.false_ne_true ?_,
        fun absent => absurd absent Bool.false_ne_true, fun _ => ?_⟩
      · intro all
        exact outside ⟨all high List.mem_cons_self,
          all low (List.mem_cons_of_mem _ List.mem_cons_self)⟩
      · simp only [List.length_cons, List.length_nil]
        omega
  | case2 high low rest accepted ih =>
      have inside : InTable high ∧ InTable low := by
        rw [pair_refused_iff] at accepted
        exact Classical.not_not.mp accepted
      simp only [List.length_cons] at even
      obtain ⟨complete, whole, short⟩ := ih (by omega)
      rw [decodePairs, if_neg accepted]
      refine ⟨?_, fun finished => ?_, fun stopped => ?_⟩
      · rw [complete]
        simp only [List.mem_cons, forall_eq_or_imp]
        exact ⟨fun later => ⟨inside.1, inside.2, later⟩, fun all => all.2.2⟩
      · simp only [List.length_cons]
        rw [whole finished]
        omega
      · have fewer := short stopped
        simp only [List.length_cons]
        omega
  | case3 text short =>
      have empty : text = [] := by
        cases text with
        | nil => rfl
        | cons first rest =>
            cases rest with
            | nil => simp at even
            | cons second rest => exact absurd rfl (short first second rest)
      subst empty
      simp [decodePairs]

/-- The characters that the loop goes through. -/
theorem take_inl (text : CString) (maxlen : Nat) (even : text.length % 2 = 0) :
    (if maxlen < text.length / 2 then maxlen * 2 else text.length) =
      (text.take (2 * maxlen)).length ∧
    text.take (if maxlen < text.length / 2 then maxlen * 2 else text.length) =
      text.take (2 * maxlen) := by
  rw [List.length_take]
  by_cases long : maxlen < text.length / 2
  · rw [if_pos long, Nat.mul_comm maxlen 2]
    exact ⟨by omega, rfl⟩
  · rw [if_neg long]
    refine ⟨by omega, ?_⟩
    rw [List.take_length, List.take_of_length_le (by omega)]

theorem hexToBytes_odd {text : CString} (odd : ¬ text.length % 2 = 0) (maxlen : Nat) :
    hexToBytes text maxlen = ([], none) := by
  unfold hexToBytes
  rw [if_pos (by omega)]

theorem hexToBytes_even {text : CString} (even : text.length % 2 = 0) (maxlen : Nat) :
    hexToBytes text maxlen =
      ((decodePairs (text.take (2 * maxlen))).1,
        if (decodePairs (text.take (2 * maxlen))).2 then some (min maxlen (text.length / 2))
        else none) := by
  have loop := take_inl text maxlen even
  have half : (text.take (2 * maxlen)).length / 2 = min maxlen (text.length / 2) := by
    rw [List.length_take]
    omega
  unfold hexToBytes
  rw [if_neg (by omega)]
  dsimp only
  rw [loop.2, loop.1, half]

theorem take_even {text : CString} (even : text.length % 2 = 0) (maxlen : Nat) :
    (text.take (2 * maxlen)).length % 2 = 0 := by
  rw [List.length_take]
  omega

/-- A length is stored exactly for the texts that decode, and it counts the bytes. -/
theorem hexToBytes_decodes {text : CString} {maxlen : Nat} (decodes : Decodes text maxlen) :
    (hexToBytes text maxlen).2 = some (min maxlen (text.length / 2)) ∧
      (hexToBytes text maxlen).1.length = min maxlen (text.length / 2) := by
  obtain ⟨complete, whole, -⟩ := decodePairs_spec _ (take_even decodes.even maxlen)
  have finished := complete.mpr decodes.inTable
  rw [hexToBytes_even decodes.even, if_pos finished]
  refine ⟨rfl, ?_⟩
  rw [whole finished, List.length_take]
  omega

/-- Otherwise the length is left unset, and the bytes fall short. -/
theorem hexToBytes_refuses {text : CString} {maxlen : Nat} (refused : ¬ Decodes text maxlen) :
    (hexToBytes text maxlen).2 = none ∧
      (0 < maxlen → (hexToBytes text maxlen).1.length < maxlen) := by
  by_cases even : text.length % 2 = 0
  · obtain ⟨complete, -, short⟩ := decodePairs_spec _ (take_even even maxlen)
    have stopped : (decodePairs (text.take (2 * maxlen))).2 = false := by
      rw [← Bool.not_eq_true, complete]
      exact fun inTable => refused ⟨even, inTable⟩
    have fewer := short stopped
    rw [List.length_take] at fewer
    rw [hexToBytes_even even, stopped]
    exact ⟨rfl, fun _ => by dsimp only; omega⟩
  · rw [hexToBytes_odd even]
    exact ⟨rfl, fun positive => positive⟩

/-! ## Hexadecimal digits -/

def hexDigits : List Char := "0123456789abcdefABCDEF".toList

/-- An even number of hexadecimal digits. -/
structure HexString (text : CString) : Prop where
  even : text.length % 2 = 0
  digits : ∀ char ∈ text, char ∈ hexDigits

instance (text : CString) : Decidable (HexString text) :=
  decidable_of_iff
    ((text.length % 2 == 0 && text.all fun char => hexDigits.contains char) = true) (by
      rw [Bool.and_eq_true, beq_iff_eq, List.all_eq_true]
      simp only [List.contains_iff_mem]
      exact ⟨fun both => ⟨both.1, both.2⟩, fun hex => ⟨hex.even, hex.digits⟩⟩)

theorem hexDigits_table {char : Char} (digit : char ∈ hexDigits) :
    InTable char ∧ mapTable char < 16 ∧ hexDigit (mapTable char) = char.toLower := by
  have all : hexDigits.all (fun char =>
      decide (InTable char ∧ mapTable char < 16 ∧ hexDigit (mapTable char) = char.toLower)) =
        true := rfl
  exact of_decide_eq_true (List.all_eq_true.mp all char digit)

/-- The two digits of a byte that was put together from two values of the table. -/
theorem byte_digits {high low : Nat} (highBound : high < 16) (lowBound : low < 16) :
    (UInt8.ofNat (high * 16 + low)).toNat / 16 = high ∧
      (UInt8.ofNat (high * 16 + low)).toNat % 16 = low := by
  rw [UInt8.toNat_ofNat_of_lt' (by rw [UInt8.size]; omega)]
  omega

/-- Hexadecimal digits are printed back in lower case. -/
theorem bytesToHex_decodePairs {text : CString} (hex : HexString text) :
    bytesToHex (decodePairs text).1 = text.map Char.toLower := by
  obtain ⟨even, digits⟩ := hex
  induction text using decodePairs.induct with
  | case1 high low rest refused =>
      have outside := (pair_refused_iff high low).mp refused
      have highTable := (hexDigits_table (digits high List.mem_cons_self)).1
      have lowTable :=
        (hexDigits_table (digits low (List.mem_cons_of_mem _ List.mem_cons_self))).1
      exact absurd ⟨highTable, lowTable⟩ outside
  | case2 high low rest accepted ih =>
      obtain ⟨-, highBound, highBack⟩ := hexDigits_table (digits high List.mem_cons_self)
      obtain ⟨-, lowBound, lowBack⟩ :=
        hexDigits_table (digits low (List.mem_cons_of_mem _ List.mem_cons_self))
      have parts := byte_digits highBound lowBound
      simp only [List.length_cons] at even
      have later := ih (by omega) fun char member =>
        digits char (List.mem_cons_of_mem _ (List.mem_cons_of_mem _ member))
      rw [bytesToHex] at later
      rw [decodePairs, if_neg accepted, bytesToHex, List.flatMap_cons, parts.1, parts.2, highBack,
        lowBack, later]
      rfl
  | case3 text short =>
      cases text with
      | nil => rfl
      | cons first rest =>
          cases rest with
          | nil => simp at even
          | cons second rest => exact absurd rfl (short first second rest)

/-- `hex_to_bytes` as a reader of hexadecimal text: it stores a length for such a text only,
and what it wrote prints as the text in lower case when it fits. -/
structure ReadsHex (text : CString) (maxlen : Nat) : Prop where
  onlyHex : ∀ len, (hexToBytes text maxlen).2 = some len → HexString text
  printsBack : ∀ len, (hexToBytes text maxlen).2 = some len → text.length / 2 ≤ maxlen →
    bytesToHex (hexToBytes text maxlen).1 = text.map Char.toLower
  otherwise : ¬ HexString text → (hexToBytes text maxlen).2 = none

end MoonlightWii.Gamestream.HexText
