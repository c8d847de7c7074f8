import Mathlib.Dynamics.PeriodicPts.Defs
import Mathlib.Data.Fintype.EquivFin
import Mathlib.Data.Nat.Prime.Defs
import Mathlib.Tactic.IntervalCases
import MoonlightWii.Foundation.CountedLoop
import MoonlightWii.Foundation.GeneratedField

/-!
# The tables of the byte field

`generate_gf` and `init_mul_table` of `reedsolomon/rs.c`.  The tables of powers and logarithms
are filled by counted loops; the product and the inverse that they give are those of the field
with 256 elements.
-/

set_option autoImplicit false

namespace MoonlightWii.Fec.ByteField

open Foundation.CountedLoop Function

/-- The file's static arrays. -/
structure Tables where
  gf_exp : ℕ → UInt8
  gf_log : ℕ → ℕ
  inverse : ℕ → UInt8
  gf_mul_table : ℕ → UInt8

/-- `GF_PP`. -/
def GF_PP : List Char := ['1', '0', '1', '1', '1', '0', '0', '0', '1']

/-- `modnn`. -/
def modnn (x : ℕ) : ℕ :=
  if 255 ≤ x then modnn (((x - 255) >>> 8) + ((x - 255) &&& 255)) else x
termination_by x
decreasing_by
  have low : (x - 255) &&& 255 = (x - 255) % 256 := Nat.and_two_pow_sub_one_eq_mod (x - 255) 8
  omega

/-- The first loop of `generate_gf`, with its mask. -/
def shiftedBit (state : UInt8 × Tables) (i : ℕ) : UInt8 × Tables :=
  let mask := state.1
  let t := { state.2 with gf_exp := update state.2.gf_exp i mask }
  let t := { t with gf_log := update t.gf_log (t.gf_exp i).toNat i }
  let t := if GF_PP.getD i '0' = '1'
    then { t with gf_exp := update t.gf_exp 8 (t.gf_exp 8 ^^^ mask) } else t
  (mask <<< 1, t)

/-- The second loop of `generate_gf`. -/
def nextPower (t : Tables) (i : ℕ) : Tables :=
  let mask := (1 : UInt8) <<< 7
  let value := if t.gf_exp (i - 1) ≥ mask
    then t.gf_exp 8 ^^^ ((t.gf_exp (i - 1) ^^^ mask) <<< 1) else t.gf_exp (i - 1) <<< 1
  let t := { t with gf_exp := update t.gf_exp i value }
  { t with gf_log := update t.gf_log (t.gf_exp i).toNat i }

def extendPower (t : Tables) (i : ℕ) : Tables :=
  { t with gf_exp := update t.gf_exp (i + 255) (t.gf_exp i) }

def invertByte (t : Tables) (i : ℕ) : Tables :=
  { t with inverse := update t.inverse i (t.gf_exp (255 - t.gf_log i)) }

/-- The powers below the ninth and the logarithms that go with them. -/
def lowPowers (t : Tables) : Tables :=
  let t := { t with gf_exp := update t.gf_exp 8 0 }
  let t := (loop 0 8 shiftedBit (1, t)).2
  { t with gf_log := update t.gf_log (t.gf_exp 8).toNat 8 }

/-- `generate_gf`. -/
def generate_gf (t : Tables) : Tables :=
  let t := loop 9 255 nextPower (lowPowers t)
  let t := { t with gf_log := update t.gf_log 0 255 }
  let t := loop 0 255 extendPower t
  let t := { t with inverse := update (update t.inverse 0 0) 1 1 }
  loop 2 256 invertByte t

def storeProduct (i : ℕ) (t : Tables) (j : ℕ) : Tables :=
  let product := t.gf_exp (modnn (t.gf_log i + t.gf_log j))
  { t with gf_mul_table := update t.gf_mul_table ((i <<< 8) + j) product }

def clearProduct (t : Tables) (j : ℕ) : Tables :=
  { t with gf_mul_table := update (update t.gf_mul_table (j <<< 8) 0) j 0 }

/-- `init_mul_table`. -/
def init_mul_table (t : Tables) : Tables :=
  loop 0 256 clearProduct (loop 0 256 (fun t i => loop 0 256 (storeProduct i) t) t)

/-- `reed_solomon_init`. -/
def reed_solomon_init (t : Tables) : Tables := init_mul_table (generate_gf t)

theorem modnn_eq (x : ℕ) : modnn x = x % 255 := by
  induction x using modnn.induct with
  | case1 x large ih =>
      have low : (x - 255) &&& 255 = (x - 255) % 256 :=
        Nat.and_two_pow_sub_one_eq_mod (x - 255) 8
      rw [modnn, if_pos large, ih, low]
      omega
  | case2 x small =>
      rw [modnn, if_neg small, Nat.mod_eq_of_lt (by omega)]

section Powers

/-- Multiplication by the generator, modulo the polynomial. -/
def timesAlpha (b : UInt8) : UInt8 :=
  if b ≥ 128 then (0x1d : UInt8) ^^^ ((b ^^^ 128) <<< 1) else b <<< 1

/-- `alpha ** i`. -/
def power (i : ℕ) : UInt8 := timesAlpha^[i] 1

theorem high_iff (b : UInt8) : b ≥ 128 ↔ b.toNat.testBit 7 = true := by
  have bound := b.toNat_lt
  rw [ge_iff_le, UInt8.le_iff_toNat_le, Nat.testBit_eq_decide_div_mod_eq, decide_eq_true_iff]
  simp
  omega

theorem timesAlpha_eq (b : UInt8) :
    timesAlpha b = (b <<< 1) ^^^ (if b.toNat.testBit 7 then 0x1d else 0) := by
  unfold timesAlpha
  by_cases high : b.toNat.testBit 7
  · have gone : (128 : UInt8) <<< 1 = 0 := by decide
    rw [if_pos ((high_iff b).mpr high), if_pos high, UInt8.shiftLeft_xor, gone, UInt8.xor_zero,
      UInt8.xor_comm]
  · rw [if_neg (fun large => high ((high_iff b).mp large)), if_neg high, UInt8.xor_zero]

theorem timesAlpha_xor (a b : UInt8) :
    timesAlpha (a ^^^ b) = timesAlpha a ^^^ timesAlpha b := by
  have exchange : ∀ p q r s : UInt8, (p ^^^ q) ^^^ (r ^^^ s) = (p ^^^ r) ^^^ (q ^^^ s) := by
    intro p q r s
    ac_rfl
  rw [timesAlpha_eq, timesAlpha_eq, timesAlpha_eq, UInt8.shiftLeft_xor, UInt8.toNat_xor,
    Nat.testBit_xor, exchange]
  congr 1
  cases a.toNat.testBit 7 <;> cases b.toNat.testBit 7 <;> rfl

theorem power_succ (i : ℕ) : power (i + 1) = timesAlpha (power i) :=
  iterate_succ_apply' timesAlpha i 1

/-- The generator returns to one after 255 steps and not before. -/
theorem period : minimalPeriod timesAlpha 1 = 255 := by
  have returns : IsPeriodicPt timesAlpha 255 1 := by
    unfold IsPeriodicPt IsFixedPt
    decide +kernel
  obtain ⟨other, product⟩ := returns.minimalPeriod_dvd
  have early : ∀ steps, timesAlpha^[steps] 1 ≠ 1 → ∀ times,
      steps ≠ minimalPeriod timesAlpha 1 * times := by
    intro steps differs times same
    have back : IsPeriodicPt timesAlpha (minimalPeriod timesAlpha 1 * times) 1 :=
      (isPeriodicPt_minimalPeriod timesAlpha 1).mul_const times
    rw [← same] at back
    exact differs back
  have by_three := early 85 (by decide +kernel)
  have by_five := early 51 (by decide +kernel)
  have by_seventeen := early 15 (by decide)
  have divides : other ∣ 255 := ⟨_, by rw [Nat.mul_comm]; exact product⟩
  have bound : other ≤ 255 := Nat.le_of_dvd (by decide) divides
  rcases Nat.eq_or_lt_of_le (Nat.pos_of_dvd_of_pos divides (by decide)) with one | more
  · have all_steps : other = 1 := one.symm
    rw [all_steps, Nat.mul_one] at product
    exact product.symm
  · have factor : 3 ∣ other ∨ 5 ∣ other ∨ 17 ∣ other := by
      have all : ∀ n ≤ 255, 1 < n → n ∣ 255 → 3 ∣ n ∨ 5 ∣ n ∨ 17 ∣ n := by decide +kernel
      exact all other bound more divides
    rcases factor with h | h | h
    · obtain ⟨times, rfl⟩ := h
      exact absurd (by rw [Nat.mul_left_comm] at product; omega) (by_three times)
    · obtain ⟨times, rfl⟩ := h
      exact absurd (by rw [Nat.mul_left_comm] at product; omega) (by_five times)
    · obtain ⟨times, rfl⟩ := h
      exact absurd (by rw [Nat.mul_left_comm] at product; omega) (by_seventeen times)

theorem power_injective {i j : ℕ} (hi : i < 255) (hj : j < 255) (same : power i = power j) :
    i = j :=
  iterate_injOn_Iio_minimalPeriod (by rw [period]; exact hi) (by rw [period]; exact hj) same

theorem power_period (i : ℕ) : power (i % 255) = power i := by
  have turn := @iterate_mod_minimalPeriod_eq _ timesAlpha 1 i
  rw [period] at turn
  exact turn

theorem power_ne_zero (i : ℕ) : power i ≠ 0 := by
  have fixed : timesAlpha 0 = 0 := by decide
  -- Zero would stay, and the generator returns to one.
  intro zero
  have later : power (254 * i + i) = 0 := by
    unfold power at zero ⊢
    rw [iterate_add_apply, zero, iterate_fixed fixed]
  have turns : 254 * i + i = i * 255 := by omega
  have one : power (i * 255) = 1 := by
    rw [← power_period, Nat.mul_mod_left]
    rfl
  rw [turns, one] at later
  exact absurd later (by decide)

/-- Every byte but zero is a power of the generator. -/
theorem exists_power {b : UInt8} (nonzero : b ≠ 0) : ∃ i < 255, power i = b := by
  have injective : Set.InjOn (fun i => (power i).toNat) (Finset.range 255) := by
    intro i hi j hj same
    exact power_injective (Finset.mem_range.mp hi) (Finset.mem_range.mp hj)
      (UInt8.toNat_inj.mp same)
  have inside : Set.MapsTo (fun i => (power i).toNat) (Finset.range 255)
      ((Finset.range 256).erase 0) := by
    intro i _
    have positive : (power i).toNat ≠ 0 := fun zero => power_ne_zero i (UInt8.toNat_inj.mp zero)
    exact Finset.mem_erase.mpr ⟨positive, Finset.mem_range.mpr (power i).toNat_lt⟩
  have onto := Finset.surjOn_of_injOn_of_card_le _ inside injective (by simp)
  have target : b.toNat ∈ ((Finset.range 256).erase 0 : Finset ℕ) := by
    have positive : b.toNat ≠ 0 := fun zero => nonzero (UInt8.toNat_inj.mp zero)
    exact Finset.mem_erase.mpr ⟨positive, Finset.mem_range.mpr b.toNat_lt⟩
  obtain ⟨i, member, found⟩ := onto target
  exact ⟨i, Finset.mem_range.mp member, UInt8.toNat_inj.mp found⟩

end Powers

section Tables

/-- The powers below `n` are stored, and their logarithms. -/
def Filled (n : ℕ) (t : Tables) : Prop :=
  ∀ k < n, t.gf_exp k = power k ∧ t.gf_log (power k).toNat = k

theorem Filled.extend {n : ℕ} {t next : Tables} (filled : Filled n t) (high : n < 255)
    (kept : ∀ k < n, next.gf_exp k = t.gf_exp k) (last : next.gf_exp n = power n)
    (stored : next.gf_log = update t.gf_log (power n).toNat n) : Filled (n + 1) next := by
  intro k below
  rcases Nat.lt_succ_iff_lt_or_eq.mp below with earlier | rfl
  · have apart : (power k).toNat ≠ (power n).toNat := by
      intro same
      exact absurd (power_injective (by omega) high (UInt8.toNat_inj.mp same)) (by omega)
    rw [kept k earlier, stored, update_of_ne apart]
    exact filled k earlier
  · rw [stored, update_self]
    exact ⟨last, rfl⟩

/-- The terms of the ninth power that the first `i` passes add up. -/
def ninth (i : ℕ) : UInt8 :=
  (List.range i).foldl
    (fun sum j => if GF_PP.getD j '0' = '1' then sum ^^^ power j else sum) 0

theorem ninth_succ (i : ℕ) :
    ninth (i + 1) = if GF_PP.getD i '0' = '1' then ninth i ^^^ power i else ninth i := by
  rw [ninth, List.range_succ, List.foldl_append]
  rfl

def shiftLeft (b : UInt8) : UInt8 := b <<< 1

/-- The state of the first loop before pass `i`. -/
def Shifting (i : ℕ) (state : UInt8 × Tables) : Prop :=
  state.1 = shiftLeft^[i] 1 ∧ Filled i state.2 ∧ state.2.gf_exp 8 = ninth i

theorem Shifting.shiftedBit {i : ℕ} (below : i < 8) {state : UInt8 × Tables}
    (shifting : Shifting i state) : Shifting (i + 1) (shiftedBit state i) := by
  obtain ⟨mask, t⟩ := state
  obtain ⟨mask_eq, filled, sum⟩ := shifting
  have masks : ∀ i < 8, shiftLeft^[i] 1 = power i := by decide
  have mask_power : mask = power i := mask_eq.trans (masks i below)
  have eighth : update t.gf_exp i mask 8 = ninth i := (update_of_ne (by omega) _ _).trans sum
  have here : update t.gf_exp i mask i = mask := update_self _ _ _
  refine ⟨?_, filled.extend (by omega) ?_ ?_ ?_, ?_⟩
  · rw [iterate_succ_apply', ← mask_eq]
    rfl
  · intro k earlier
    unfold ByteField.shiftedBit
    dsimp only
    split
    · exact (update_of_ne (by omega) _ _).trans (update_of_ne (by omega) _ _)
    · exact update_of_ne (by omega) _ _
  · unfold ByteField.shiftedBit
    dsimp only
    rw [← mask_power]
    split
    · exact (update_of_ne (by omega) _ _).trans here
    · exact here
  · unfold ByteField.shiftedBit
    dsimp only
    rw [here, ← mask_power]
    split <;> rfl
  · unfold ByteField.shiftedBit
    dsimp only
    rw [ninth_succ, eighth, mask_power]
    split
    · dsimp only
      rw [update_self]
    · rw [← mask_power]
      exact eighth

theorem lowPowers_filled (t : Tables) : Filled 9 (lowPowers t) := by
  unfold lowPowers
  have start : Shifting 0 (1, { t with gf_exp := update t.gf_exp 8 0 }) :=
    ⟨rfl, fun k below => absurd below (Nat.not_lt_zero k), rfl⟩
  obtain ⟨-, filled, sum⟩ := loop_invariant Shifting (by decide) start
    fun i state _ high holds => Shifting.shiftedBit high holds
  have ninth_power : ninth 8 = power 8 := by decide
  rw [ninth_power] at sum
  refine filled.extend (by decide) (fun k _ => rfl) sum ?_
  rw [← sum]

theorem Filled.nextPower {n : ℕ} {t : Tables} (filled : Filled n t) (low : 9 ≤ n)
    (high : n < 255) : Filled (n + 1) (nextPower t n) := by
  have last : (ByteField.nextPower t n).gf_exp n = power n := by
    obtain ⟨before, rfl⟩ : ∃ before, n = before + 1 := ⟨n - 1, by omega⟩
    have eighth : t.gf_exp 8 = 0x1d := (filled 8 (by omega)).1
    have previous : t.gf_exp (before + 1 - 1) = power before := (filled before (by omega)).1
    rw [power_succ, timesAlpha, ← previous, ← eighth]
    exact update_self _ _ _
  refine filled.extend high (fun k earlier => update_of_ne (by omega) _ _) last ?_
  rw [← last]
  rfl

theorem extendPower_exp (t : Tables) (i k : ℕ) :
    (extendPower t i).gf_exp k = if k = i + 255 then t.gf_exp i else t.gf_exp k :=
  update_apply _ _ _ _

theorem invertByte_inverse (t : Tables) (i b : ℕ) :
    (invertByte t i).inverse b = if b = i then t.gf_exp (255 - t.gf_log i) else t.inverse b :=
  update_apply _ _ _ _

/-- What `generate_gf` leaves in the tables. -/
structure Generated (t : Tables) : Prop where
  exp : ∀ i < 510, t.gf_exp i = power i
  log : ∀ i < 255, t.gf_log (power i).toNat = i
  log_zero : t.gf_log 0 = 255
  inverse_zero : t.inverse 0 = 0
  inverse_one : t.inverse 1 = 1
  inverse : ∀ b, 2 ≤ b → b < 256 → t.inverse b = t.gf_exp (255 - t.gf_log b)

theorem extendPower_loop {t : Tables} (filled : Filled 255 t) :
    (∀ i < 510, (loop 0 255 extendPower t).gf_exp i = power i) ∧
      (loop 0 255 extendPower t).gf_log = t.gf_log := by
  change (∀ i < 255 + 255, (loop 0 255 extendPower t).gf_exp i = power i) ∧ _
  refine loop_invariant (fun n (state : Tables) =>
    (∀ k < 255 + n, state.gf_exp k = power k) ∧ state.gf_log = t.gf_log)
    (by decide) ⟨fun k below => (filled k below).1, rfl⟩ ?_
  rintro i state - high ⟨holds, same⟩
  refine ⟨?_, same⟩
  intro k below
  rw [extendPower_exp]
  split
  next here =>
    rw [holds i (by omega), ← power_period i, ← power_period k]
    congr 1
    omega
  next => exact holds k (by omega)

theorem invertByte_loop (t : Tables) :
    (loop 2 256 invertByte t).gf_exp = t.gf_exp ∧ (loop 2 256 invertByte t).gf_log = t.gf_log ∧
      (loop 2 256 invertByte t).inverse 0 = t.inverse 0 ∧
      (loop 2 256 invertByte t).inverse 1 = t.inverse 1 ∧
      ∀ b, 2 ≤ b → b < 256 →
        (loop 2 256 invertByte t).inverse b = t.gf_exp (255 - t.gf_log b) := by
  refine loop_invariant (fun n (state : Tables) => state.gf_exp = t.gf_exp ∧
    state.gf_log = t.gf_log ∧ state.inverse 0 = t.inverse 0 ∧ state.inverse 1 = t.inverse 1 ∧
    ∀ b, 2 ≤ b → b < n → state.inverse b = t.gf_exp (255 - t.gf_log b))
    (by decide) ⟨rfl, rfl, rfl, rfl, fun b low high => absurd high (by omega)⟩ ?_
  rintro i state low - ⟨same_exp, same_log, zero, one, done⟩
  refine ⟨same_exp, same_log, ?_, ?_, ?_⟩
  · rw [invertByte_inverse, if_neg (by omega), zero]
  · rw [invertByte_inverse, if_neg (by omega), one]
  · intro b above below
    rw [invertByte_inverse]
    split
    next same => rw [same_exp, same_log, same]
    next other => exact done b above (by omega)

theorem generate_gf_generated (t : Tables) : Generated (generate_gf t) := by
  unfold generate_gf
  dsimp only
  have filled : Filled 255 (loop 9 255 nextPower (lowPowers t)) :=
    loop_invariant Filled (by decide) (lowPowers_filled t)
      fun i state low high holds => holds.nextPower low high
  generalize loop 9 255 nextPower (lowPowers t) = powers at filled ⊢
  have marked : Filled 255 { powers with gf_log := update powers.gf_log 0 255 } := by
    intro i below
    have positive : (power i).toNat ≠ 0 := fun zero => power_ne_zero i (UInt8.toNat_inj.mp zero)
    exact ⟨(filled i below).1, (update_of_ne positive _ _).trans (filled i below).2⟩
  obtain ⟨exps, logs⟩ := extendPower_loop marked
  generalize loop 0 255 extendPower { powers with gf_log := update powers.gf_log 0 255 } = whole
    at exps logs ⊢
  obtain ⟨same_exp, same_log, zero, one, inverses⟩ :=
    invertByte_loop { whole with inverse := update (update whole.inverse 0 0) 1 1 }
  dsimp only at zero one
  rw [update_of_ne (by decide), update_self] at zero
  rw [update_self] at one
  refine ⟨?_, ?_, ?_, zero, one, ?_⟩
  · intro i below
    rw [same_exp]
    exact exps i below
  · intro i below
    rw [same_log]
    exact (congrFun logs _).trans (marked i below).2
  · rw [same_log]
    exact (congrFun logs 0).trans rfl
  · intro b low high
    rw [same_exp, same_log]
    exact inverses b low high

def logProduct (t : Tables) (i j : ℕ) : UInt8 := t.gf_exp (modnn (t.gf_log i + t.gf_log j))

theorem shiftedIndex (i : ℕ) : i <<< 8 = i * 256 := Nat.shiftLeft_eq i 8

theorem storeProduct_cell (i j : ℕ) (t : Tables) (cell : ℕ) :
    (storeProduct i t j).gf_mul_table cell =
      if cell = i * 256 + j then logProduct t i j else t.gf_mul_table cell := by
  rw [← shiftedIndex]
  exact update_apply _ _ _ _

/-- The cells filled before row `rows` and before place `places` of that row; the other tables
are as they were. -/
def Multiplied (t : Tables) (rows places : ℕ) (state : Tables) : Prop :=
  (state.gf_exp = t.gf_exp ∧ state.gf_log = t.gf_log ∧ state.inverse = t.inverse) ∧
    ∀ i j, j < 256 → i < rows ∨ i = rows ∧ j < places →
      state.gf_mul_table (i * 256 + j) = logProduct t i j

theorem Multiplied.storeProduct {t state : Tables} {i j : ℕ} (within : j < 256)
    (holds : Multiplied t i j state) : Multiplied t i (j + 1) (storeProduct i state j) := by
  obtain ⟨⟨same_exp, same_log, same_inverse⟩, filled⟩ := holds
  refine ⟨⟨same_exp, same_log, same_inverse⟩, ?_⟩
  intro row place below before
  rw [storeProduct_cell, logProduct, same_exp, same_log]
  split
  next same =>
    obtain ⟨rfl, rfl⟩ : row = i ∧ place = j := by omega
    rfl
  next other => exact filled row place below (by omega)

theorem Multiplied.row {t state : Tables} {i : ℕ} (holds : Multiplied t i 0 state) :
    Multiplied t (i + 1) 0 (loop 0 256 (ByteField.storeProduct i) state) := by
  have full : Multiplied t i 256 (loop 0 256 (ByteField.storeProduct i) state) :=
    loop_invariant (Multiplied t i) (Nat.zero_le 256) holds
      fun j state _ high holds => holds.storeProduct high
  refine ⟨full.1, ?_⟩
  intro row place below before
  exact full.2 row place below (by omega)

theorem clearProduct_cell (t : Tables) (j cell : ℕ) :
    (clearProduct t j).gf_mul_table cell =
      if cell = j ∨ cell = j * 256 then 0 else t.gf_mul_table cell := by
  rw [← shiftedIndex]
  unfold clearProduct
  dsimp only
  rw [update_apply, update_apply]
  split_ifs <;> tauto

theorem clearProduct_loop (t : Tables) (cell : ℕ) :
    (loop 0 256 clearProduct t).gf_mul_table cell =
      if cell < 256 ∨ cell < 65536 ∧ cell % 256 = 0 then 0 else t.gf_mul_table cell := by
  refine loop_invariant (fun n (state : Tables) => state.gf_mul_table cell =
    if cell < n ∨ cell < n * 256 ∧ cell % 256 = 0 then 0 else t.gf_mul_table cell)
    (Nat.zero_le 256) (by simp) ?_
  intro i state _ high holds
  rw [clearProduct_cell, holds]
  split_ifs <;> first | rfl | omega

theorem clearProduct_others (t : Tables) :
    (loop 0 256 clearProduct t).gf_exp = t.gf_exp ∧
      (loop 0 256 clearProduct t).gf_log = t.gf_log ∧
      (loop 0 256 clearProduct t).inverse = t.inverse :=
  loop_invariant (fun _ (state : Tables) => state.gf_exp = t.gf_exp ∧
    state.gf_log = t.gf_log ∧ state.inverse = t.inverse) (Nat.zero_le 256) ⟨rfl, rfl, rfl⟩
    fun _ _ _ _ holds => holds

theorem init_mul_table_filled (t : Tables) :
    Multiplied t 256 0 (loop 0 256 (fun t i => loop 0 256 (storeProduct i) t) t) :=
  loop_invariant (fun i => Multiplied t i 0) (Nat.zero_le 256)
    ⟨⟨rfl, rfl, rfl⟩, fun i j _ before => absurd before (by omega)⟩
    fun i state _ _ holds => holds.row

/-- The product table, from tables of powers and logarithms. -/
theorem init_mul_table_cell (t : Tables) {i j : ℕ} (hi : i < 256) (hj : j < 256) :
    (init_mul_table t).gf_mul_table (i * 256 + j) =
      if i = 0 ∨ j = 0 then 0 else logProduct t i j := by
  rw [init_mul_table, clearProduct_loop, (init_mul_table_filled t).2 i j hj (Or.inl hi)]
  congr 1
  rw [eq_iff_iff]
  omega

theorem init_mul_table_others (t : Tables) :
    (init_mul_table t).gf_exp = t.gf_exp ∧ (init_mul_table t).gf_log = t.gf_log ∧
      (init_mul_table t).inverse = t.inverse := by
  obtain ⟨exps, logs, inverses⟩ := (init_mul_table_filled t).1
  obtain ⟨same_exp, same_log, same_inverse⟩ :=
    clearProduct_others (loop 0 256 (fun t i => loop 0 256 (storeProduct i) t) t)
  exact ⟨same_exp.trans exps, same_log.trans logs, same_inverse.trans inverses⟩

theorem reed_solomon_init_generated (t : Tables) : Generated (reed_solomon_init t) := by
  obtain ⟨exp, log, log_zero, zero, one, inverse⟩ := generate_gf_generated t
  obtain ⟨same_exp, same_log, same_inverse⟩ := init_mul_table_others (generate_gf t)
  have keeps : ∀ final : Tables, final.gf_exp = (generate_gf t).gf_exp →
      final.gf_log = (generate_gf t).gf_log → final.inverse = (generate_gf t).inverse →
      Generated final := by
    intro final exps logs inverses
    constructor
    · rw [exps]
      exact exp
    · rw [logs]
      exact log
    · rw [logs]
      exact log_zero
    · rw [inverses]
      exact zero
    · rw [inverses]
      exact one
    · rw [exps, logs, inverses]
      exact inverse
  exact keeps _ same_exp same_log same_inverse

end Tables

section Arithmetic

/-- `gf`, with the tables' arithmetic. -/
structure Gf where
  byte : UInt8
deriving DecidableEq

/-- Sums are exclusive ors. -/
abbrev xorGroup : AddCommGroup Gf :=
  letI : Add Gf := ⟨fun a b => ⟨a.byte ^^^ b.byte⟩⟩
  letI : Zero Gf := ⟨⟨0⟩⟩
  letI : Neg Gf := ⟨fun a => a⟩
  { AddGroup.ofLeftAxioms (G := Gf) (fun _ _ _ => congrArg Gf.mk (UInt8.xor_assoc _ _ _))
      (fun _ => congrArg Gf.mk UInt8.zero_xor) (fun _ => congrArg Gf.mk UInt8.xor_self) with
    add_comm := fun _ _ => congrArg Gf.mk (UInt8.xor_comm _ _) }

/-- The static arrays after `reed_solomon_init`. -/
@[irreducible]
def tables : Tables := reed_solomon_init ⟨fun _ => 0, fun _ => 0, fun _ => 0, fun _ => 0⟩

/-- The array `gf_log`. -/
def gf_log (b : UInt8) : ℕ := tables.gf_log b.toNat

theorem tables_generated : Generated tables := by
  unfold tables
  exact reed_solomon_init_generated _

-- Between functions, because a comparison of their values runs the loops.
theorem gf_log_eq : gf_log = fun b => tables.gf_log b.toNat := rfl

theorem tables_log {b : UInt8} (nonzero : b ≠ 0) : gf_log b < 255 ∧ power (gf_log b) = b := by
  obtain ⟨i, below, rfl⟩ := exists_power nonzero
  have log : gf_log (power i) = i := by
    rw [gf_log_eq]
    exact tables_generated.log i below
  rw [log]
  exact ⟨below, rfl⟩

theorem byte_ne_zero {b : Gf} (nonzero : b ≠ ⟨0⟩) : b.byte ≠ 0 :=
  fun zero => nonzero (congrArg Gf.mk zero)

def timesGenerator (b : Gf) : Gf := ⟨timesAlpha b.byte⟩

theorem timesGenerator_iterate (i : ℕ) (b : Gf) :
    timesGenerator^[i] b = ⟨timesAlpha^[i] b.byte⟩ := by
  induction i with
  | zero => rfl
  | succ i ih =>
      rw [iterate_succ_apply', iterate_succ_apply', ih]
      rfl

theorem timesGenerator_zero : timesGenerator ⟨0⟩ = ⟨0⟩ := by decide

/-- The generator `alpha` and its table of logarithms. -/
def generator : @Foundation.GeneratedField.Generator Gf xorGroup :=
  letI := xorGroup
  { step := ⟨⟨timesGenerator, timesGenerator_zero⟩,
      fun _ _ => congrArg Gf.mk (timesAlpha_xor _ _)⟩
    one := ⟨1⟩
    order := 255
    log := fun b => gf_log b.byte
    order_pos := Nat.succ_pos 254
    one_ne_zero := fun zero => power_ne_zero 0 (congrArg Gf.byte zero)
    returns := (timesGenerator_iterate 255 ⟨1⟩).trans (congrArg Gf.mk (power_period 255).symm)
    log_le := fun _ nonzero => Nat.le_of_lt (tables_log (byte_ne_zero nonzero)).1
    power_log := fun _ nonzero => (timesGenerator_iterate _ ⟨1⟩).trans
      (congrArg Gf.mk (tables_log (byte_ne_zero nonzero)).2) }

instance : Field Gf := @Foundation.GeneratedField.Generator.toField Gf xorGroup generator _

theorem generator_power (i : ℕ) :
    @Foundation.GeneratedField.Generator.power Gf xorGroup generator i = ⟨power i⟩ :=
  timesGenerator_iterate i ⟨1⟩

theorem power_mul (i : ℕ) (b : Gf) : ⟨power i⟩ * b = ⟨timesAlpha^[i] b.byte⟩ := by
  have product := @Foundation.GeneratedField.Generator.power_mul Gf xorGroup generator _ i b
  rw [generator_power] at product
  exact product.trans (timesGenerator_iterate i b)

theorem power_mul_power (i j : ℕ) : (⟨power i⟩ : Gf) * ⟨power j⟩ = ⟨power (i + j)⟩ := by
  rw [power_mul]
  exact congrArg Gf.mk (iterate_add_apply timesAlpha i j 1).symm

theorem zero_eq : (0 : Gf) = ⟨0⟩ := rfl

theorem one_eq : (1 : Gf) = ⟨1⟩ := rfl

@[simp]
theorem zero_byte : (0 : Gf).byte = 0 := rfl

@[simp]
theorem one_byte : (1 : Gf).byte = 1 := rfl

theorem mk_ne_zero {b : UInt8} (nonzero : b ≠ 0) : (⟨b⟩ : Gf) ≠ 0 :=
  fun zero => nonzero ((congrArg Gf.byte zero).trans zero_byte)

theorem neg_eq (x : Gf) : -x = x := rfl

theorem inv_eq {x : Gf} (nonzero : x ≠ 0) :
    x⁻¹ = ⟨power (255 - gf_log x.byte)⟩ :=
  (if_neg nonzero).trans (generator_power _)

/-- The product table holds the products. -/
theorem product_cell (t : Tables) (x y : UInt8) :
    (⟨(reed_solomon_init t).gf_mul_table ((x.toNat <<< 8) + y.toNat)⟩ : Gf) = ⟨x⟩ * ⟨y⟩ := by
  have generated := generate_gf_generated t
  rw [shiftedIndex, reed_solomon_init, init_mul_table_cell _ x.toNat_lt y.toNat_lt]
  by_cases x_zero : x = 0
  · rw [x_zero, ← zero_eq, zero_mul]
    exact congrArg Gf.mk (if_pos (Or.inl rfl))
  by_cases y_zero : y = 0
  · rw [y_zero, ← zero_eq, mul_zero]
    exact congrArg Gf.mk (if_pos (Or.inr rfl))
  obtain ⟨i, hi, rfl⟩ := exists_power x_zero
  obtain ⟨j, hj, rfl⟩ := exists_power y_zero
  have x_positive : (power i).toNat ≠ 0 := fun zero => power_ne_zero i (UInt8.toNat_inj.mp zero)
  have y_positive : (power j).toNat ≠ 0 := fun zero => power_ne_zero j (UInt8.toNat_inj.mp zero)
  rw [if_neg (not_or.mpr ⟨x_positive, y_positive⟩), logProduct, generated.log i hi,
    generated.log j hj, modnn_eq, generated.exp _ (by omega), power_period, power_mul_power]

theorem inverse_power (t : Tables) {i : ℕ} (hi : i < 255) (more : 2 ≤ (power i).toNat) :
    (reed_solomon_init t).inverse (power i).toNat = power (255 - i) := by
  have generated := reed_solomon_init_generated t
  rw [generated.inverse _ more (UInt8.toNat_lt _), generated.log i hi,
    generated.exp _ (by omega)]

theorem inv_power {i : ℕ} (hi : i < 255) : (⟨power i⟩ : Gf)⁻¹ = ⟨power (255 - i)⟩ := by
  have nonzero : (⟨power i⟩ : Gf) ≠ 0 := mk_ne_zero (power_ne_zero i)
  have log := tables_log (power_ne_zero i)
  have same : gf_log (power i) = i := power_injective log.1 hi log.2
  rw [inv_eq nonzero, same]

theorem inverse_cell (t : Tables) (x : UInt8) :
    (⟨(reed_solomon_init t).inverse x.toNat⟩ : Gf) = (⟨x⟩ : Gf)⁻¹ := by
  have generated := reed_solomon_init_generated t
  by_cases x_zero : x = 0
  · rw [x_zero, ← zero_eq, inv_zero, UInt8.toNat_zero, generated.inverse_zero, zero_eq]
  by_cases x_one : x = 1
  · rw [x_one, ← one_eq, inv_one, UInt8.toNat_one, generated.inverse_one, one_eq]
  have more : 2 ≤ x.toNat := by
    by_contra less
    have small : x.toNat = 0 ∨ x.toNat = 1 := by omega
    rcases small with zero | one
    · exact x_zero (UInt8.toNat_inj.mp zero)
    · exact x_one (UInt8.toNat_inj.mp one)
  obtain ⟨i, hi, rfl⟩ := exists_power x_zero
  rw [inv_power hi, inverse_power t hi more]

/-- The macro `gf_mul`. -/
def gf_mul : Gf → Gf → Gf
  | ⟨x⟩, ⟨y⟩ => ⟨tables.gf_mul_table ((x.toNat <<< 8) + y.toNat)⟩

/-- The array `inverse`. -/
def gf_inverse : Gf → Gf
  | ⟨x⟩ => ⟨tables.inverse x.toNat⟩

@[simp]
theorem gf_mul_eq (x y : Gf) : gf_mul x y = x * y := by
  obtain ⟨x⟩ := x
  obtain ⟨y⟩ := y
  unfold gf_mul tables
  exact product_cell _ x y

@[simp]
theorem gf_inverse_eq (x : Gf) : gf_inverse x = x⁻¹ := by
  obtain ⟨x⟩ := x
  unfold gf_inverse tables
  exact inverse_cell _ x

end Arithmetic

section Schoolbook

/-- The product by shifting and adding, modulo the polynomial. -/
def schoolbook (x y : UInt8) : UInt8 :=
  (List.range 8).foldl
    (fun sum i => if x.toNat.testBit i then sum ^^^ timesAlpha^[i] y else sum) 0

theorem bits_eq (x : UInt8) : schoolbook x 1 = x := by
  have all : ∀ n < 256, schoolbook (UInt8.ofNat n) 1 = UInt8.ofNat n := by decide +kernel
  have here := all x.toNat x.toNat_lt
  rwa [UInt8.ofNat_toNat] at here

theorem foldl_mul (places : List ℕ) (x : UInt8) (sum : UInt8) (y : Gf) :
    (⟨places.foldl
        (fun sum i => if x.toNat.testBit i then sum ^^^ timesAlpha^[i] 1 else sum) sum⟩ : Gf) * y =
      ⟨places.foldl
        (fun sum i => if x.toNat.testBit i then sum ^^^ timesAlpha^[i] y.byte else sum)
        ((⟨sum⟩ : Gf) * y).byte⟩ := by
  induction places generalizing sum with
  | nil => rfl
  | cons i places ih =>
      rw [List.foldl_cons, List.foldl_cons, ih]
      congr 2
      split
      · have split_sum : (⟨sum ^^^ power i⟩ : Gf) = ⟨sum⟩ + ⟨power i⟩ := rfl
        have product := power_mul i y
        change ((⟨sum ^^^ power i⟩ : Gf) * y).byte = _
        rw [split_sum, add_mul, product]
        rfl
      · rfl

theorem mul_eq_schoolbook (x y : UInt8) : (⟨x⟩ : Gf) * ⟨y⟩ = ⟨schoolbook x y⟩ := by
  have product := foldl_mul (List.range 8) x 0 ⟨y⟩
  rw [← zero_eq, zero_mul] at product
  have whole : (⟨schoolbook x 1⟩ : Gf) * ⟨y⟩ = ⟨schoolbook x y⟩ := product
  rwa [bits_eq] at whole

/-- After `reed_solomon_init` the product table is multiplication modulo the polynomial, and
the inverse table is its inverse. -/
theorem reed_solomon_init_arithmetic (t : Tables) (x y : UInt8) :
    (reed_solomon_init t).gf_mul_table ((x.toNat <<< 8) + y.toNat) = schoolbook x y ∧
      (x ≠ 0 → schoolbook x ((reed_solomon_init t).inverse x.toNat) = 1) := by
  constructor
  · have cell := product_cell t x y
    rw [mul_eq_schoolbook] at cell
    exact Gf.mk.inj cell
  · intro nonzero
    have cancel : (⟨x⟩ : Gf) * (⟨x⟩ : Gf)⁻¹ = 1 :=
      mul_inv_cancel₀ (mk_ne_zero nonzero)
    rw [← inverse_cell t x, mul_eq_schoolbook, one_eq] at cancel
    exact Gf.mk.inj cancel

end Schoolbook

end MoonlightWii.Fec.ByteField
