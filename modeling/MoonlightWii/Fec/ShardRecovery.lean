import Mathlib.Algebra.BigOperators.Intervals
import Mathlib.Data.List.GetD
import Mathlib.Logic.Equiv.Fin.Basic
import MoonlightWii.Fec.InvertMat
import MoonlightWii.Foundation.ErasureCode

/-!
# Forward error correction

`reed_solomon_new`, `reed_solomon_encode` and `reed_solomon_reconstruct` of `reedsolomon/rs.c`.
Blocks are reached through pointers, here numbers, so that what a loop reads may be what an
earlier pass wrote.  Whatever is lost, up to the parity at hand, comes back as it was encoded.
-/

set_option autoImplicit false

namespace MoonlightWii.Fec.ShardRecovery

open Function ByteField InvertMat Foundation.CountedLoop Foundation.ErasureCode

/-- The blocks behind the pointers. -/
abbrev Shards (block_size : ℕ) : Type := ℕ → Fin block_size → Gf

structure ReedSolomon where
  data_shards : ℕ
  parity_shards : ℕ
  shards : ℕ
  m : ℕ → ℕ → Gf
  parity : ℕ → ℕ → Gf

variable {block_size : ℕ}

/-- `mul`: for a zero coefficient `memset` is asked to clear `c` bytes, which is none. -/
def mul (dst1 src1 : Fin block_size → Gf) (c : Gf) : Fin block_size → Gf :=
  if c ≠ 0 then fun i => gf_mul c (src1 i) else dst1

/-- One pass of the inner loop of `code_some_shards`. -/
def codeShard (matrixRows : ℕ → ℕ → Gf) (inputs outputs : ℕ → ℕ) (c : ℕ)
    (shards : Shards block_size) (iRow : ℕ) : Shards block_size :=
  let dst := shards (outputs iRow)
  let src := shards (inputs c)
  update shards (outputs iRow)
    (if c = 0 then mul dst src (matrixRows iRow c) else addmul dst src (matrixRows iRow c))

/-- `code_some_shards`. -/
def code_some_shards (matrixRows : ℕ → ℕ → Gf) (inputs outputs : ℕ → ℕ)
    (dataShards outputCount : ℕ) (shards : Shards block_size) : Shards block_size :=
  loop 0 dataShards (fun shards c =>
    loop 0 outputCount (codeShard matrixRows inputs outputs c) shards) shards

/-- `sub_matrix`, from its first row and column on. -/
def sub_matrix (matrix : ℕ → ℕ → Gf) (rmin cmin : ℕ) : ℕ → ℕ → Gf :=
  fun i j => matrix (rmin + i) (cmin + j)

/-- `multiply1`. -/
def multiply1 (a : ℕ → ℕ → Gf) (ac : ℕ) (b : ℕ → ℕ → Gf) : ℕ → ℕ → Gf :=
  fun r c => loop 0 ac (fun tg i => tg + gf_mul (a r i) (b i c)) 0

/-- The first `k` rows and columns. -/
def square (k : ℕ) (matrix : ℕ → ℕ → Gf) : Square k := fun i j => matrix i j

def spread {k : ℕ} (matrix : Square k) : ℕ → ℕ → Gf :=
  fun i j => if within : i < k ∧ j < k then matrix ⟨i, within.1⟩ ⟨j, within.2⟩ else 0

/-- The parity rows of `rs->m`, stored over the product. -/
def cauchyRows (ds ps : ℕ) (m : ℕ → ℕ → Gf) : ℕ → ℕ → Gf := fun row col =>
  if ds ≤ row then gf_inverse ⟨UInt8.ofNat ((ps + col) ^^^ (row - ds))⟩ else m row col

/-- `DATA_SHARDS_MAX`. -/
def DATA_SHARDS_MAX : ℤ := 255

/-- `reed_solomon_new`, every allocation successful. -/
def reed_solomon_new (data_shards parity_shards : ℤ) : Option ReedSolomon :=
  if DATA_SHARDS_MAX < data_shards + parity_shards ∨ data_shards ≤ 0 ∨ parity_shards ≤ 0 then none
  else
    let ds := data_shards.toNat
    let ps := parity_shards.toNat
    let vm : ℕ → ℕ → Gf := fun row col => if row = col then 1 else 0
    let inverted := invert_mat (square ds (sub_matrix vm 0 0))
    if inverted.1 ≠ 0 then none
    else
      let m := cauchyRows ds ps (multiply1 vm ds (spread inverted.2))
      some ⟨ds, ps, ds + ps, m, sub_matrix m ds 0⟩

/-- `reed_solomon_encode`; the loop runs once for each whole or begun group. -/
def reed_solomon_encode (rs : ReedSolomon) (nr_shards : ℕ) (shards : Shards block_size) :
    Shards block_size :=
  let fec_blocks := nr_shards / rs.shards * rs.data_shards
  loop 0 ((nr_shards + rs.shards - 1) / rs.shards) (fun shards group =>
    code_some_shards rs.parity (fun c => group * rs.data_shards + c)
      (fun iRow => fec_blocks + group * rs.parity_shards + iRow)
      rs.data_shards rs.parity_shards shards) shards

section Decode

/-- One pass of the sorting loop, and whether it exchanged anything. -/
def sortPass (i : ℕ) (erased_blocks : List ℕ) : Bool × List ℕ :=
  loop (i + 1) erased_blocks.length (fun state j =>
    let blocks := state.2
    if blocks.getD j 0 < blocks.getD i 0 then
      (true, (blocks.set i (blocks.getD j 0)).set j (blocks.getD i 0))
    else state) (false, erased_blocks)

def sortPasses : List ℕ → List ℕ → List ℕ
  | [], erased_blocks => erased_blocks
  | i :: rest, erased_blocks =>
    let pass := sortPass i erased_blocks
    if pass.1 then sortPasses rest pass.2 else pass.2

/-- The rows of the blocks that are there, with the blocks. -/
def intactRows (m : ℕ → ℕ → Gf) (data_blocks : ℕ) : List ℕ → List ℕ → List (ℕ × (ℕ → Gf))
  | [], _ => []
  | i :: rest, [] => (data_blocks + i, m i) :: intactRows m data_blocks rest []
  | i :: rest, erased :: others =>
    if i = erased then intactRows m data_blocks rest others
    else (data_blocks + i, m i) :: intactRows m data_blocks rest (erased :: others)

/-- `subShards` and the rows of `dataDecodeMatrix`. -/
def decodeRows (rs : ReedSolomon) (data_blocks : ℕ)
    (dec_fec_blocks fec_block_nos erased_blocks : List ℕ) : List (ℕ × (ℕ → Gf)) :=
  let intact := intactRows rs.m data_blocks (List.range rs.data_shards) erased_blocks
  let fec := (dec_fec_blocks.zip fec_block_nos).map fun block =>
    (block.1, rs.m (rs.data_shards + block.2))
  intact ++ fec.take (rs.data_shards - intact.length)

/-- The inverse of the rows, then the rows of the lost blocks moved to its front. -/
def dataDecodeMatrix (dataShards : ℕ) (rows : List (ℕ × (ℕ → Gf))) (erased_blocks : List ℕ) :
    ℕ → ℕ → Gf :=
  loop 0 erased_blocks.length (fun matrix i => update matrix i (matrix (erased_blocks.getD i 0)))
    (spread (invert_mat (square dataShards fun r => (rows.getD r (0, 0)).2)).2)

/-- `reed_solomon_decode` on arrays of `nr_fec_blocks` elements. -/
def reed_solomon_decode (rs : ReedSolomon) (data_blocks : ℕ)
    (dec_fec_blocks fec_block_nos erased_blocks : List ℕ) (shards : Shards block_size) :
    ℤ × Shards block_size :=
  let erased_blocks := sortPasses (List.range erased_blocks.length) erased_blocks
  let rows := decodeRows rs data_blocks dec_fec_blocks fec_block_nos erased_blocks
  if rows.length < rs.data_shards then (-1, shards)
  else (0, code_some_shards (dataDecodeMatrix rs.data_shards rows erased_blocks)
    (fun r => (rows.getD r (0, 0)).1) (fun i => data_blocks + erased_blocks.getD i 0)
    rs.data_shards erased_blocks.length shards)

/-- The parity blocks of a group that are there, as many as are needed. -/
def validFec (lost : ℕ → Bool) (dn : ℕ) : List ℕ → List ℕ → List ℕ
  | [], fec_block_nos => fec_block_nos
  | i :: rest, fec_block_nos =>
    if fec_block_nos.length < dn then
      validFec lost dn rest (if lost i then fec_block_nos else fec_block_nos ++ [i])
    else fec_block_nos

/-- One pass of `reed_solomon_reconstruct`. -/
def reconstructGroup (rs : ReedSolomon) (n : ℕ) (marks : ℕ → Bool)
    (state : ℤ × Shards block_size) (j : ℕ) : ℤ × Shards block_size :=
  let data_blocks := j * rs.data_shards
  let fec_blocks := n * rs.data_shards + j * rs.parity_shards
  let erased_blocks := (List.range rs.data_shards).filter fun i => marks (data_blocks + i)
  if 0 < erased_blocks.length then
    let fec_block_nos := validFec (fun i => marks (fec_blocks + i)) erased_blocks.length
      (List.range rs.parity_shards) []
    if erased_blocks.length = fec_block_nos.length then
      (state.1, (reed_solomon_decode rs data_blocks (fec_block_nos.map (fec_blocks + ·))
        fec_block_nos erased_blocks state.2).2)
    else (-1, state.2)
  else state

/-- `reed_solomon_reconstruct`. -/
def reed_solomon_reconstruct (rs : ReedSolomon) (marks : ℕ → Bool) (nr_shards : ℕ)
    (shards : Shards block_size) : ℤ × Shards block_size :=
  let n := nr_shards / rs.shards
  loop 0 n (reconstructGroup rs n marks) (0, shards)

end Decode

section Coding

theorem mul_apply (dst1 src1 : Fin block_size → Gf) {c : Gf} (nonzero : c ≠ 0) :
    mul dst1 src1 c = fun i => c * src1 i := by
  unfold mul
  rw [if_pos nonzero]
  funext i
  exact gf_mul_eq c (src1 i)

/-- The outputs hold the first `n` terms of their sums, and the other blocks are as they were. -/
def Coded (matrixRows : ℕ → ℕ → Gf) (inputs outputs : ℕ → ℕ) (outputCount : ℕ)
    (shards : Shards block_size) (n : ℕ) (state : Shards block_size) : Prop :=
  (∀ block, (∀ iRow < outputCount, outputs iRow ≠ block) → state block = shards block) ∧
    ∀ iRow < outputCount, 0 < n → state (outputs iRow) =
      fun b => ∑ c ∈ Finset.range n, matrixRows iRow c * shards (inputs c) b

variable {matrixRows : ℕ → ℕ → Gf} {inputs outputs : ℕ → ℕ} {dataShards outputCount : ℕ}
  {shards : Shards block_size}

theorem codeShard_value {state : Shards block_size} {c iRow : ℕ}
    (nonzero : matrixRows iRow 0 ≠ 0)
    (sum : 0 < c → state (outputs iRow) =
      fun b => ∑ c ∈ Finset.range c, matrixRows iRow c * shards (inputs c) b)
    (input : state (inputs c) = shards (inputs c)) :
    codeShard matrixRows inputs outputs c state iRow (outputs iRow) =
      fun b => ∑ c ∈ Finset.range (c + 1), matrixRows iRow c * shards (inputs c) b := by
  unfold codeShard
  rw [update_self, input]
  split_ifs with first
  · subst first
    rw [mul_apply _ _ nonzero]
    simp
  · funext b
    rw [addmul_eq, sum (Nat.pos_of_ne_zero first), Finset.sum_range_succ]

theorem codeShard_other {state : Shards block_size} {c iRow block : ℕ}
    (other : outputs iRow ≠ block) :
    codeShard matrixRows inputs outputs c state iRow block = state block :=
  update_of_ne other.symm _ _

/-- One column of the matrix adds its term to every output. -/
theorem Coded.column {state : Shards block_size} {c : ℕ}
    (coded : Coded matrixRows inputs outputs outputCount shards c state)
    (distinct : ∀ i < outputCount, ∀ j < outputCount, outputs i = outputs j → i = j)
    (apart : ∀ iRow < outputCount, outputs iRow ≠ inputs c)
    (nonzero : ∀ iRow < outputCount, matrixRows iRow 0 ≠ 0) :
    Coded matrixRows inputs outputs outputCount shards (c + 1)
      (loop 0 outputCount (codeShard matrixRows inputs outputs c) state) := by
  obtain ⟨others, sums⟩ := coded
  have run : (∀ block, (∀ iRow < outputCount, outputs iRow ≠ block) →
        loop 0 outputCount (codeShard matrixRows inputs outputs c) state block = shards block) ∧
      (∀ iRow < outputCount, iRow < outputCount →
        loop 0 outputCount (codeShard matrixRows inputs outputs c) state (outputs iRow) =
          fun b => ∑ c ∈ Finset.range (c + 1), matrixRows iRow c * shards (inputs c) b) ∧
      ∀ iRow < outputCount, outputCount ≤ iRow →
        loop 0 outputCount (codeShard matrixRows inputs outputs c) state (outputs iRow) =
          state (outputs iRow) := by
    refine loop_invariant (fun done (now : Shards block_size) =>
      (∀ block, (∀ iRow < outputCount, outputs iRow ≠ block) → now block = shards block) ∧
      (∀ iRow < outputCount, iRow < done → now (outputs iRow) =
        fun b => ∑ c ∈ Finset.range (c + 1), matrixRows iRow c * shards (inputs c) b) ∧
      ∀ iRow < outputCount, done ≤ iRow → now (outputs iRow) = state (outputs iRow))
      (Nat.zero_le outputCount)
      ⟨others, fun iRow _ none => absurd none (Nat.not_lt_zero iRow), fun _ _ _ => rfl⟩ ?_
    rintro done now - within ⟨kept, added, waiting⟩
    refine ⟨?_, ?_, ?_⟩
    · intro block none
      rw [codeShard_other (none done within)]
      exact kept block none
    · intro iRow below earlier
      rcases Nat.lt_succ_iff_lt_or_eq.mp earlier with before | rfl
      · rw [codeShard_other fun same => absurd (distinct _ within _ below same) (by omega)]
        exact added iRow below before
      · refine codeShard_value (nonzero iRow below) ?_ (kept _ apart)
        intro later
        rw [waiting iRow below (Nat.le_refl iRow)]
        exact sums iRow below later
    · intro iRow below later
      rw [codeShard_other fun same => absurd (distinct _ within _ below same) (by omega)]
      exact waiting iRow below (by omega)
  exact ⟨run.1, fun iRow below _ => run.2.1 iRow below below⟩

/-- Outputs that are distinct blocks, none of them an input, end as the sums of the inputs,
whatever they held, where no first coefficient is zero. -/
theorem code_some_shards_spec
    (distinct : ∀ i < outputCount, ∀ j < outputCount, outputs i = outputs j → i = j)
    (apart : ∀ c < dataShards, ∀ iRow < outputCount, outputs iRow ≠ inputs c)
    (nonzero : ∀ iRow < outputCount, matrixRows iRow 0 ≠ 0) :
    Coded matrixRows inputs outputs outputCount shards dataShards
      (code_some_shards matrixRows inputs outputs dataShards outputCount shards) := by
  refine loop_invariant (Coded matrixRows inputs outputs outputCount shards)
    (Nat.zero_le dataShards) ⟨fun _ _ => rfl, fun _ _ none => absurd none (Nat.lt_irrefl 0)⟩ ?_
  intro c state _ within coded
  exact coded.column distinct (apart c within) nonzero

end Coding

section Encoding

/-- The parity blocks of the `n` groups go with their data blocks. -/
def Encoded (rs : ReedSolomon) (n : ℕ) (shards : Shards block_size) : Prop :=
  ∀ j < n, ∀ i < rs.parity_shards,
    shards (n * rs.data_shards + j * rs.parity_shards + i) =
      fun b => ∑ c ∈ Finset.range rs.data_shards,
        rs.parity i c * shards (j * rs.data_shards + c) b

/-- What the rest of the file relies on in a codec. -/
structure Codec (rs : ReedSolomon) : Prop where
  shards : rs.shards = rs.data_shards + rs.parity_shards
  some_data : 0 < rs.data_shards
  symbols : ∀ i < rs.data_shards, ∀ c < rs.data_shards, rs.m i c = if i = c then 1 else 0
  parity : ∀ j < rs.parity_shards, ∀ c < rs.data_shards,
    rs.m (rs.data_shards + j) c = rs.parity j c
  strong : Strong fun (j : Fin rs.parity_shards) (c : Fin rs.data_shards) => rs.parity j c

theorem Codec.parity_ne_zero {rs : ReedSolomon} (codec : Codec rs) {i : ℕ}
    (within : i < rs.parity_shards) : rs.parity i 0 ≠ 0 :=
  codec.strong.entry_ne_zero ⟨i, within⟩ ⟨0, codec.some_data⟩

/-- A place of one group's row of blocks is below every place of a later group's. -/
theorem place_lt {size group n i : ℕ} (within : i < size) (below : group < n) :
    group * size + i < n * size := by
  calc group * size + i < group * size + size := Nat.add_lt_add_left within _
    _ = (group + 1) * size := (Nat.succ_mul group size).symm
    _ ≤ n * size := Nat.mul_le_mul_right size below

theorem place_inj {size g h i j : ℕ} (hi : i < size) (hj : j < size)
    (same : g * size + i = h * size + j) : g = h ∧ i = j := by
  rcases Nat.lt_trichotomy g h with less | rfl | more
  · exact absurd (place_lt hi less) (by omega)
  · exact ⟨rfl, by omega⟩
  · exact absurd (place_lt hj more) (by omega)

/-- The blocks after the first `groups` groups are encoded. -/
def EncodedSoFar (rs : ReedSolomon) (n : ℕ) (shards : Shards block_size) (groups : ℕ)
    (state : Shards block_size) : Prop :=
  (∀ block, block < n * rs.data_shards ∨
    n * rs.data_shards + n * rs.parity_shards ≤ block → state block = shards block) ∧
  ∀ j < groups, ∀ i < rs.parity_shards,
    state (n * rs.data_shards + j * rs.parity_shards + i) =
      fun b => ∑ c ∈ Finset.range rs.data_shards,
        rs.parity i c * shards (j * rs.data_shards + c) b

theorem EncodedSoFar.group {rs : ReedSolomon} (codec : Codec rs) {n group : ℕ}
    {shards state : Shards block_size} (within : group < n)
    (encoded : EncodedSoFar rs n shards group state) :
    EncodedSoFar rs n shards (group + 1)
      (code_some_shards rs.parity (fun c => group * rs.data_shards + c)
        (fun iRow => n * rs.data_shards + group * rs.parity_shards + iRow)
        rs.data_shards rs.parity_shards state) := by
  obtain ⟨others, earlier⟩ := encoded
  obtain ⟨kept, sums⟩ : Coded rs.parity (fun c => group * rs.data_shards + c)
      (fun iRow => n * rs.data_shards + group * rs.parity_shards + iRow)
      rs.parity_shards state rs.data_shards _ := by
    refine code_some_shards_spec (fun i _ j _ same => Nat.add_left_cancel same) ?_
      (fun iRow below => codec.parity_ne_zero below)
    intro c below iRow _ same
    have := place_lt below within
    omega
  constructor
  · intro block outside
    rw [kept block, others block outside]
    intro iRow below same
    dsimp only at same
    have := place_lt below within
    omega
  · intro j before i below
    rcases Nat.lt_succ_iff_lt_or_eq.mp before with old | rfl
    · rw [kept, earlier j old i below]
      intro iRow inside same
      have places : group * rs.parity_shards + iRow = j * rs.parity_shards + i := by
        dsimp only at same
        omega
      have := (place_inj inside below places).1
      omega
    · rw [sums i below codec.some_data]
      funext b
      refine Finset.sum_congr rfl fun c member => ?_
      rw [others _ (Or.inl (place_lt (Finset.mem_range.mp member) within))]

/-- Encoding leaves the data blocks, and computes the parity of every group whatever the parity
blocks held before. -/
theorem reed_solomon_encode_spec {rs : ReedSolomon} (codec : Codec rs) (n : ℕ)
    (shards : Shards block_size) :
    Encoded rs n (reed_solomon_encode rs (n * rs.shards) shards) ∧
      ∀ block, block < n * rs.data_shards ∨ n * rs.shards ≤ block →
        reed_solomon_encode rs (n * rs.shards) shards block = shards block := by
  have positive : 0 < rs.shards := by
    rw [codec.shards]
    exact Nat.add_pos_left codec.some_data _
  have groups : (n * rs.shards + rs.shards - 1) / rs.shards = n := by
    rw [Nat.add_sub_assoc positive, Nat.mul_comm, Nat.mul_add_div positive,
      Nat.div_eq_of_lt (by omega), Nat.add_zero]
  have before : n * rs.shards / rs.shards = n := Nat.mul_div_cancel n positive
  have total : n * rs.shards = n * rs.data_shards + n * rs.parity_shards := by
    rw [codec.shards, Nat.mul_add]
  have whole : EncodedSoFar rs n shards n (reed_solomon_encode rs (n * rs.shards) shards) := by
    unfold reed_solomon_encode
    rw [groups, before]
    refine loop_invariant (EncodedSoFar rs n shards) (Nat.zero_le n)
      ⟨fun _ _ => rfl, fun j none => absurd none (Nat.not_lt_zero j)⟩ ?_
    exact fun group state _ within encoded => encoded.group codec within
  refine ⟨?_, fun block outside => whole.1 block (total ▸ outside)⟩
  intro j within i below
  rw [whole.2 j within i below]
  funext b
  refine Finset.sum_congr rfl fun c member => ?_
  rw [whole.1 _ (Or.inl (place_lt (Finset.mem_range.mp member) within))]

end Encoding

section Arrays

theorem sortPass_sorted {erased_blocks : List ℕ} (sorted : erased_blocks.Pairwise (· < ·))
    (i : ℕ) : sortPass i erased_blocks = (false, erased_blocks) := by
  unfold sortPass
  by_cases within : i + 1 ≤ erased_blocks.length
  · refine loop_invariant (fun _ state => state = (false, erased_blocks)) within rfl ?_
    rintro j state low high rfl
    have less : erased_blocks.getD i 0 < erased_blocks.getD j 0 := by
      rw [List.getD_eq_getElem _ _ within, List.getD_eq_getElem _ _ high]
      exact List.pairwise_iff_getElem.mp sorted i j within high low
    exact if_neg (Nat.not_lt_of_lt less)
  · exact loop_stop (by omega) _ _

theorem sortPasses_sorted {erased_blocks : List ℕ} (sorted : erased_blocks.Pairwise (· < ·))
    (passes : List ℕ) : sortPasses passes erased_blocks = erased_blocks := by
  cases passes with
  | nil => rfl
  | cons i rest => rw [sortPasses, sortPass_sorted sorted, if_neg Bool.false_ne_true]

theorem intactRows_filter (m : ℕ → ℕ → Gf) (data_blocks : ℕ) (lost : ℕ → Bool) {places : List ℕ}
    (distinct : places.Nodup) : intactRows m data_blocks places (places.filter lost) =
      (places.filter fun i => !lost i).map fun i => (data_blocks + i, m i) := by
  induction places with
  | nil => rfl
  | cons i rest ih =>
      obtain ⟨fresh, distinct_rest⟩ := List.nodup_cons.mp distinct
      have rest_rows := ih distinct_rest
      cases gone : lost i with
      | true =>
          rw [List.filter_cons_of_pos gone, List.filter_cons_of_neg (by simp [gone]), intactRows,
            if_pos rfl, rest_rows]
      | false =>
          rw [List.filter_cons_of_neg (by simp [gone]), List.filter_cons_of_pos (by simp [gone]),
            List.map_cons, ← rest_rows]
          cases others : rest.filter lost with
          | nil => rfl
          | cons erased more =>
              have member : erased ∈ rest :=
                List.mem_of_mem_filter (others ▸ List.mem_cons_self)
              have apart : i ≠ erased := fun same => fresh (same ▸ member)
              rw [intactRows, if_neg apart]

theorem validFec_eq (lost : ℕ → Bool) (dn : ℕ) (places fec_block_nos : List ℕ) :
    validFec lost dn places fec_block_nos = fec_block_nos ++
      (places.filter fun i => !lost i).take (dn - fec_block_nos.length) := by
  induction places generalizing fec_block_nos with
  | nil => simp [validFec]
  | cons i rest ih =>
      rw [validFec]
      split_ifs with wanted gone
      · rw [ih, List.filter_cons_of_neg (by simp [gone])]
      · obtain ⟨left, more⟩ : ∃ left, dn - fec_block_nos.length = left + 1 :=
          ⟨dn - fec_block_nos.length - 1, by omega⟩
        have fewer : dn - (fec_block_nos ++ [i]).length = left := by
          rw [List.length_append, List.length_singleton]
          omega
        rw [ih, List.filter_cons_of_pos (by simp [gone]), more, List.take_succ_cons, fewer,
          List.append_assoc, List.singleton_append]
      · rw [Nat.sub_eq_zero_of_le (Nat.le_of_not_lt wanted), List.take_zero, List.append_nil]

theorem le_getD_of_increasing {numbers : List ℕ} (increasing : numbers.Pairwise (· < ·)) {i : ℕ}
    (within : i < numbers.length) : i ≤ numbers.getD i 0 := by
  induction i with
  | zero => exact Nat.zero_le _
  | succ i ih =>
      have before : i < numbers.length := Nat.lt_of_succ_lt within
      have below := ih before
      have less := List.pairwise_iff_getElem.mp increasing i (i + 1) before within i.lt_succ_self
      rw [List.getD_eq_getElem _ _ before] at below
      rw [List.getD_eq_getElem _ _ within]
      exact Nat.lt_of_le_of_lt below less

/-- The rows of lost blocks move to the front, none of them before it is read. -/
theorem moveRows_spec {erased_blocks : List ℕ} (increasing : erased_blocks.Pairwise (· < ·))
    (inverse : ℕ → ℕ → Gf) {i : ℕ} (within : i < erased_blocks.length) :
    loop 0 erased_blocks.length (fun matrix i =>
      update matrix i (matrix (erased_blocks.getD i 0))) inverse i =
        inverse (erased_blocks.getD i 0) := by
  have moved : (∀ i < erased_blocks.length, loop 0 erased_blocks.length (fun matrix i =>
        update matrix i (matrix (erased_blocks.getD i 0))) inverse i =
          inverse (erased_blocks.getD i 0)) ∧
      ∀ row ≥ erased_blocks.length, loop 0 erased_blocks.length (fun matrix i =>
        update matrix i (matrix (erased_blocks.getD i 0))) inverse row = inverse row := by
    refine loop_invariant (fun done (matrix : ℕ → ℕ → Gf) =>
      (∀ i < done, matrix i = inverse (erased_blocks.getD i 0)) ∧
      ∀ row ≥ done, matrix row = inverse row) (Nat.zero_le _)
      ⟨fun i none => absurd none (Nat.not_lt_zero i), fun _ _ => rfl⟩ ?_
    rintro done matrix - inside ⟨front, back⟩
    constructor
    · intro i below
      rcases Nat.lt_succ_iff_lt_or_eq.mp below with earlier | rfl
      · rw [update_of_ne (by omega)]
        exact front i earlier
      · rw [update_self]
        exact back _ (le_getD_of_increasing increasing inside)
    · intro row beyond
      rw [update_of_ne (by omega)]
      exact back row (by omega)
  exact moved.1 i within

end Arrays

section Decoding

variable {rs : ReedSolomon}

/-- As many rows of the code as there are data blocks. -/
structure Chosen (rs : ReedSolomon) (chosen : List ℕ) : Prop where
  length : chosen.length = rs.data_shards
  distinct : chosen.Nodup
  bound : ∀ row ∈ chosen, row < rs.data_shards + rs.parity_shards

/-- A chosen row as a data block or a parity block. -/
def Chosen.symbol {chosen : List ℕ} (valid : Chosen rs chosen) (place : Fin rs.data_shards) :
    Fin rs.data_shards ⊕ Fin rs.parity_shards :=
  finSumFinEquiv.symm ⟨chosen.get ⟨place, valid.length.symm ▸ place.isLt⟩,
    valid.bound _ (List.get_mem _ _)⟩

theorem Chosen.symbol_injective {chosen : List ℕ} (valid : Chosen rs chosen) :
    Injective valid.symbol := by
  intro place other same
  have rows := Fin.mk.inj (finSumFinEquiv.symm.injective same)
  exact Fin.ext ((List.Nodup.getElem_inj_iff valid.distinct).mp rows)

theorem Codec.systematic_row (codec : Codec rs) {row : ℕ}
    (bound : row < rs.data_shards + rs.parity_shards) (c : Fin rs.data_shards) :
    systematic (fun (j : Fin rs.parity_shards) (c : Fin rs.data_shards) => rs.parity j c)
      (finSumFinEquiv.symm ⟨row, bound⟩) c = rs.m row c := by
  by_cases data : row < rs.data_shards
  · have symbol : finSumFinEquiv.symm ⟨row, bound⟩ =
        (Sum.inl ⟨row, data⟩ : Fin rs.data_shards ⊕ Fin rs.parity_shards) :=
      finSumFinEquiv_symm_apply_castAdd ⟨row, data⟩
    rw [symbol, codec.symbols row data c c.isLt]
    simp only [systematic, Sum.elim_inl, Pi.single_apply, Fin.ext_iff]
    exact if_congr eq_comm rfl rfl
  · obtain ⟨j, rfl⟩ := Nat.exists_eq_add_of_le (Nat.le_of_not_lt data)
    have within : j < rs.parity_shards := Nat.lt_of_add_lt_add_left bound
    have symbol : finSumFinEquiv.symm ⟨rs.data_shards + j, bound⟩ =
        (Sum.inr ⟨j, within⟩ : Fin rs.data_shards ⊕ Fin rs.parity_shards) :=
      finSumFinEquiv_symm_apply_natAdd ⟨j, within⟩
    rw [symbol, codec.parity j within c c.isLt]
    rfl

theorem Chosen.square_eq (codec : Codec rs) {chosen : List ℕ} (valid : Chosen rs chosen) :
    Matrix.of (square rs.data_shards fun place => rs.m (chosen.getD place 0)) =
      selection (fun (j : Fin rs.parity_shards) (c : Fin rs.data_shards) => rs.parity j c)
        valid.symbol := by
  funext place c
  have within : (place : ℕ) < chosen.length := valid.length.symm ▸ place.isLt
  change rs.m (chosen.getD place 0) c = systematic _ (valid.symbol place) c
  rw [List.getD_eq_getElem _ _ within]
  exact (codec.systematic_row _ c).symm

/-- The matrix of the chosen rows is inverted, and the sums with a row of the inverse give back
what was encoded. -/
theorem Chosen.inverse (codec : Codec rs) {chosen : List ℕ} (valid : Chosen rs chosen) :
    Matrix.of (invert_mat (square rs.data_shards fun place => rs.m (chosen.getD place 0))).2 *
      selection (fun (j : Fin rs.parity_shards) (c : Fin rs.data_shards) => rs.parity j c)
        valid.symbol = 1 := by
  obtain ⟨zero_iff, inverse⟩ :=
    invert_mat_spec (square rs.data_shards fun place => rs.m (chosen.getD place 0))
  rw [valid.square_eq codec] at zero_iff inverse
  exact inverse (zero_iff.mpr (codec.strong.isUnit_selection valid.symbol_injective))

theorem Chosen.recovers (codec : Codec rs) {chosen : List ℕ} (valid : Chosen rs chosen)
    (x : ℕ → Gf) {e : ℕ} (data : e < rs.data_shards) :
    ∑ place ∈ Finset.range rs.data_shards,
      spread (invert_mat (square rs.data_shards fun place => rs.m (chosen.getD place 0))).2 e place *
        ∑ c ∈ Finset.range rs.data_shards, rs.m (chosen.getD place 0) c * x c = x e := by
  have inverse := valid.inverse codec
  rw [← valid.square_eq codec] at inverse
  set matrix := invert_mat (square rs.data_shards fun place => rs.m (chosen.getD place 0))
  have applied := congrFun (congrArg (Matrix.mulVec · fun c : Fin rs.data_shards => x c) inverse)
    ⟨e, data⟩
  rw [Matrix.one_mulVec, ← Matrix.mulVec_mulVec] at applied
  rw [Finset.sum_range]
  refine Eq.trans (Finset.sum_congr rfl fun place _ => ?_) applied
  rw [Finset.sum_range]
  congr 1
  exact dif_pos ⟨data, place.isLt⟩

theorem Chosen.first_ne_zero (codec : Codec rs) {chosen : List ℕ} (valid : Chosen rs chosen)
    {e : ℕ} (data : e < rs.data_shards) (lost : e ∉ chosen) :
    spread (invert_mat (square rs.data_shards fun place => rs.m (chosen.getD place 0))).2 e 0 ≠
      0 := by
  have absent : ∀ place, valid.symbol place ≠ Sum.inl ⟨e, data⟩ := by
    intro place same
    have row := congrArg finSumFinEquiv same
    rw [Chosen.symbol, Equiv.apply_symm_apply] at row
    have number : chosen.get ⟨place, valid.length.symm ▸ place.isLt⟩ = e := congrArg Fin.val row
    exact lost (number ▸ List.get_mem _ _)
  unfold spread
  rw [dif_pos ⟨data, codec.some_data⟩]
  exact codec.strong.inverse_ne_zero valid.symbol_injective (valid.inverse codec) absent
    ⟨0, codec.some_data⟩

/-- What decoding starts from: the data blocks that are there, and as many parity blocks as data
blocks are lost. -/
structure Received (rs : ReedSolomon) (data_blocks fec_blocks : ℕ) (lost : ℕ → Bool)
    (fec_block_nos : List ℕ) (x shards : Shards block_size) : Prop where
  apart : data_blocks + rs.data_shards ≤ fec_blocks
  distinct : fec_block_nos.Nodup
  bound : ∀ no ∈ fec_block_nos, no < rs.parity_shards
  enough : ((List.range rs.data_shards).filter lost).length = fec_block_nos.length
  intact : ∀ i < rs.data_shards, lost i = false → shards (data_blocks + i) = x i
  parity : ∀ no ∈ fec_block_nos, shards (fec_blocks + no) =
    fun b => ∑ c ∈ Finset.range rs.data_shards, rs.parity no c * x c b

/-- The rows of the code that decoding starts from. -/
def chosenRows (rs : ReedSolomon) (lost : ℕ → Bool) (fec_block_nos : List ℕ) : List ℕ :=
  (List.range rs.data_shards).filter (fun i => !lost i) ++
    fec_block_nos.map (rs.data_shards + ·)

variable {data_blocks fec_blocks : ℕ} {lost : ℕ → Bool} {fec_block_nos : List ℕ}
  {x shards : Shards block_size}

theorem mem_chosenRows {row : ℕ} : row ∈ chosenRows rs lost fec_block_nos ↔
    row < rs.data_shards ∧ lost row = false ∨
      ∃ no ∈ fec_block_nos, rs.data_shards + no = row := by
  simp [chosenRows]

theorem intact_length (lost : ℕ → Bool) (count : ℕ) :
    ((List.range count).filter fun i => !lost i).length +
      ((List.range count).filter lost).length = count := by
  have both := List.length_eq_length_filter_add (l := List.range count) lost
  rw [List.length_range] at both
  omega

theorem Received.chosen (received : Received rs data_blocks fec_blocks lost fec_block_nos x shards) :
    Chosen rs (chosenRows rs lost fec_block_nos) where
  length := by
    have both := intact_length lost rs.data_shards
    rw [received.enough] at both
    rw [chosenRows, List.length_append, List.length_map, both]
  distinct := by
    refine List.nodup_append.mpr ⟨List.nodup_range.filter _,
      received.distinct.map fun _ _ => Nat.add_left_cancel, ?_⟩
    intro row low other high same
    obtain ⟨no, -, rfl⟩ := List.mem_map.mp high
    have below := List.mem_range.mp (List.mem_of_mem_filter low)
    omega
  bound := by
    intro row member
    rcases mem_chosenRows.mp member with ⟨low, -⟩ | ⟨no, chosen, rfl⟩
    · omega
    · exact Nat.add_lt_add_left (received.bound no chosen) _

/-- Where the block of a row of the code is. -/
def pointer (rs : ReedSolomon) (data_blocks fec_blocks row : ℕ) : ℕ :=
  if row < rs.data_shards then data_blocks + row else fec_blocks + (row - rs.data_shards)

theorem Received.rows
    (received : Received rs data_blocks fec_blocks lost fec_block_nos x shards) :
    decodeRows rs data_blocks (fec_block_nos.map (fec_blocks + ·)) fec_block_nos
      ((List.range rs.data_shards).filter lost) = (chosenRows rs lost fec_block_nos).map fun row =>
        (pointer rs data_blocks fec_blocks row, rs.m row) := by
  have both := intact_length lost rs.data_shards
  rw [received.enough] at both
  unfold decodeRows chosenRows
  dsimp only
  rw [intactRows_filter rs.m data_blocks lost List.nodup_range, List.length_map, List.map_append,
    List.map_map]
  congr 1
  · refine List.map_congr_left fun row member => ?_
    rw [pointer, if_pos (List.mem_range.mp (List.mem_of_mem_filter member))]
  · have pairs : (fec_block_nos.map (fec_blocks + ·)).zip fec_block_nos =
        fec_block_nos.map fun no => (fec_blocks + no, no) := by
      have zipped := @List.zip_map' _ _ _ (fec_blocks + ·) id fec_block_nos
      rwa [List.map_id] at zipped
    rw [pairs, List.map_map, List.take_of_length_le]
    · refine List.map_congr_left fun no _ => ?_
      rw [comp_apply, comp_apply, pointer, if_neg (by omega), Nat.add_sub_cancel_left]
    · rw [List.length_map]
      omega

/-- Each block that decoding starts from is coded by its row. -/
theorem Received.coded (codec : Codec rs)
    (received : Received rs data_blocks fec_blocks lost fec_block_nos x shards) {row : ℕ}
    (member : row ∈ chosenRows rs lost fec_block_nos) :
    shards (pointer rs data_blocks fec_blocks row) =
      fun b => ∑ c ∈ Finset.range rs.data_shards, rs.m row c * x c b := by
  rcases mem_chosenRows.mp member with ⟨low, there⟩ | ⟨no, chosen, rfl⟩
  · rw [pointer, if_pos low, received.intact row low there]
    funext b
    rw [Finset.sum_eq_single row]
    · rw [codec.symbols row low row low, if_pos rfl, one_mul]
    · intro c below differs
      rw [codec.symbols row low c (Finset.mem_range.mp below), if_neg differs.symm, zero_mul]
    · exact fun absent => absurd (Finset.mem_range.mpr low) absent
  · rw [pointer, if_neg (by omega), Nat.add_sub_cancel_left, received.parity no chosen]
    funext b
    refine Finset.sum_congr rfl fun c below => ?_
    rw [codec.parity no (received.bound no chosen) c (Finset.mem_range.mp below)]

theorem Received.mem_erased {e : ℕ} : e ∈ (List.range rs.data_shards).filter lost ↔
    e < rs.data_shards ∧ lost e = true := by
  rw [List.mem_filter, List.mem_range]

theorem increasing_erased :
    ((List.range rs.data_shards).filter lost).Pairwise (· < ·) :=
  List.pairwise_lt_range.filter _

/-- The block and the row at a place of the decoding matrix. -/
theorem Received.row_at (received : Received rs data_blocks fec_blocks lost fec_block_nos x shards)
    {place : ℕ} (within : place < rs.data_shards) :
    (decodeRows rs data_blocks (fec_block_nos.map (fec_blocks + ·)) fec_block_nos
      ((List.range rs.data_shards).filter lost)).getD place (0, 0) =
      (pointer rs data_blocks fec_blocks ((chosenRows rs lost fec_block_nos).getD place 0),
        rs.m ((chosenRows rs lost fec_block_nos).getD place 0)) := by
  have inside : place < (chosenRows rs lost fec_block_nos).length :=
    received.chosen.length ▸ within
  rw [received.rows, List.getD_eq_getElem _ _ (by rwa [List.length_map]), List.getElem_map,
    List.getD_eq_getElem _ _ inside]

theorem Received.matrix_row
    (received : Received rs data_blocks fec_blocks lost fec_block_nos x shards) {i : ℕ}
    (within : i < ((List.range rs.data_shards).filter lost).length) :
    dataDecodeMatrix rs.data_shards (decodeRows rs data_blocks (fec_block_nos.map (fec_blocks + ·))
      fec_block_nos ((List.range rs.data_shards).filter lost))
      ((List.range rs.data_shards).filter lost) i =
    spread (invert_mat (square rs.data_shards fun place =>
      rs.m ((chosenRows rs lost fec_block_nos).getD place 0))).2
      (((List.range rs.data_shards).filter lost).getD i 0) := by
  have same_square : square rs.data_shards (fun r => ((decodeRows rs data_blocks
      (fec_block_nos.map (fec_blocks + ·)) fec_block_nos
      ((List.range rs.data_shards).filter lost)).getD r (0, 0)).2) =
      square rs.data_shards fun place => rs.m ((chosenRows rs lost fec_block_nos).getD place 0) := by
    funext place c
    exact congrFun (congrArg Prod.snd (received.row_at place.isLt)) c
  unfold dataDecodeMatrix
  rw [same_square]
  exact moveRows_spec increasing_erased _ within

theorem Received.decode_eq
    (received : Received rs data_blocks fec_blocks lost fec_block_nos x shards) :
    (reed_solomon_decode rs data_blocks (fec_block_nos.map (fec_blocks + ·)) fec_block_nos
      ((List.range rs.data_shards).filter lost) shards).2 =
    code_some_shards (dataDecodeMatrix rs.data_shards (decodeRows rs data_blocks
        (fec_block_nos.map (fec_blocks + ·)) fec_block_nos
        ((List.range rs.data_shards).filter lost)) ((List.range rs.data_shards).filter lost))
      (fun r => ((decodeRows rs data_blocks (fec_block_nos.map (fec_blocks + ·)) fec_block_nos
        ((List.range rs.data_shards).filter lost)).getD r (0, 0)).1)
      (fun i => data_blocks + ((List.range rs.data_shards).filter lost).getD i 0)
      rs.data_shards ((List.range rs.data_shards).filter lost).length shards := by
  unfold reed_solomon_decode
  rw [sortPasses_sorted increasing_erased]
  refine congrArg Prod.snd (if_neg ?_)
  rw [received.rows, List.length_map, received.chosen.length]
  exact lt_irrefl _

/-- Decoding restores the lost blocks, whatever they held, and touches no others. -/
theorem Received.decode (codec : Codec rs)
    (received : Received rs data_blocks fec_blocks lost fec_block_nos x shards) :
    (∀ i < rs.data_shards, (reed_solomon_decode rs data_blocks (fec_block_nos.map (fec_blocks + ·))
      fec_block_nos ((List.range rs.data_shards).filter lost) shards).2 (data_blocks + i) = x i) ∧
    ∀ block, (∀ i < rs.data_shards, data_blocks + i ≠ block) →
      (reed_solomon_decode rs data_blocks (fec_block_nos.map (fec_blocks + ·)) fec_block_nos
        ((List.range rs.data_shards).filter lost) shards).2 block = shards block := by
  have valid := received.chosen
  rw [received.decode_eq]
  set rows := decodeRows rs data_blocks (fec_block_nos.map (fec_blocks + ·)) fec_block_nos
    ((List.range rs.data_shards).filter lost) with rows_eq
  set erased := (List.range rs.data_shards).filter lost with erased_eq
  have erased_at : ∀ i < erased.length, erased.getD i 0 < rs.data_shards ∧
      lost (erased.getD i 0) = true := by
    intro i within
    rw [List.getD_eq_getElem _ _ within]
    exact Received.mem_erased.mp (List.getElem_mem within)
  have missing : ∀ i < erased.length, erased.getD i 0 ∉ chosenRows rs lost fec_block_nos := by
    intro i within member
    obtain ⟨low, gone⟩ := erased_at i within
    rcases mem_chosenRows.mp member with ⟨-, there⟩ | ⟨no, -, same⟩
    · exact Bool.noConfusion (gone.symm.trans there)
    · omega
  obtain ⟨kept, sums⟩ : Coded (dataDecodeMatrix rs.data_shards rows erased)
      (fun r => (rows.getD r (0, 0)).1) (fun i => data_blocks + erased.getD i 0) erased.length
      shards rs.data_shards _ := by
    refine code_some_shards_spec ?_ ?_ ?_
    · intro i hi j hj same
      have numbers := Nat.add_left_cancel same
      rw [List.getD_eq_getElem _ _ hi, List.getD_eq_getElem _ _ hj] at numbers
      exact (List.Nodup.getElem_inj_iff (List.nodup_range.filter _)).mp numbers
    · intro c below i within same
      rw [received.row_at below] at same
      have member : (chosenRows rs lost fec_block_nos).getD c 0 ∈
          chosenRows rs lost fec_block_nos := by
        rw [List.getD_eq_getElem _ _ (valid.length ▸ below)]
        exact List.getElem_mem _
      have low := (erased_at i within).1
      have apart := received.apart
      dsimp only [pointer] at same
      split_ifs at same with data
      · exact missing i within ((Nat.add_left_cancel same) ▸ member)
      · omega
    · intro i within
      rw [received.matrix_row within]
      exact valid.first_ne_zero codec (erased_at i within).1 (missing i within)
  constructor
  · intro e below
    by_cases gone : lost e = true
    · obtain ⟨i, within, number⟩ := List.getElem_of_mem (Received.mem_erased.mpr ⟨below, gone⟩)
      have here : erased.getD i 0 = e := (List.getD_eq_getElem _ _ within).trans number
      have value := sums i within codec.some_data
      dsimp only at value
      rw [here] at value
      rw [value]
      funext b
      rw [← valid.recovers codec (fun c => x c b) below]
      refine Finset.sum_congr rfl fun place member => ?_
      have inside := Finset.mem_range.mp member
      rw [received.matrix_row within, here, received.row_at inside, received.coded codec]
      rw [List.getD_eq_getElem _ _ (valid.length ▸ inside)]
      exact List.getElem_mem _
    · rw [kept, received.intact e below (Bool.eq_false_of_not_eq_true gone)]
      intro i within same
      have number := Nat.add_left_cancel same
      exact gone (number ▸ (erased_at i within).2)
  · intro block other
    refine kept block fun i within => other _ (erased_at i within).1

end Decoding

section Reconstruction

variable {rs : ReedSolomon}

/-- The data blocks lost in a group, and the parity blocks that it is repaired from. -/
def lostData (rs : ReedSolomon) (marks : ℕ → Bool) (j : ℕ) : List ℕ :=
  (List.range rs.data_shards).filter fun i => marks (j * rs.data_shards + i)

def keptParity (rs : ReedSolomon) (n : ℕ) (marks : ℕ → Bool) (j : ℕ) : List ℕ :=
  (List.range rs.parity_shards).filter fun i =>
    !marks (n * rs.data_shards + j * rs.parity_shards + i)

/-- A group has lost no more data blocks than it has kept parity blocks. -/
def Recoverable (rs : ReedSolomon) (n : ℕ) (marks : ℕ → Bool) (j : ℕ) : Prop :=
  (lostData rs marks j).length ≤ (keptParity rs n marks j).length

instance (rs : ReedSolomon) (n : ℕ) (marks : ℕ → Bool) (j : ℕ) :
    Decidable (Recoverable rs n marks j) := inferInstanceAs (Decidable (_ ≤ _))

/-- The blocks of a group that are not marked are as they were sent. -/
structure Arrived (rs : ReedSolomon) (n : ℕ) (marks : ℕ → Bool) (sent : Shards block_size)
    (j : ℕ) (shards : Shards block_size) : Prop where
  data : ∀ i < rs.data_shards, marks (j * rs.data_shards + i) = false →
    shards (j * rs.data_shards + i) = sent (j * rs.data_shards + i)
  parity : ∀ i < rs.parity_shards,
    marks (n * rs.data_shards + j * rs.parity_shards + i) = false →
      shards (n * rs.data_shards + j * rs.parity_shards + i) =
        sent (n * rs.data_shards + j * rs.parity_shards + i)

variable {n j : ℕ} {marks : ℕ → Bool} {sent : Shards block_size}

theorem Recoverable.received {shards : Shards block_size} (recoverable : Recoverable rs n marks j)
    (within : j < n) (encoded : Encoded rs n sent) (arrived : Arrived rs n marks sent j shards) :
    Received rs (j * rs.data_shards) (n * rs.data_shards + j * rs.parity_shards)
      (fun i => marks (j * rs.data_shards + i))
      ((keptParity rs n marks j).take (lostData rs marks j).length)
      (fun i => sent (j * rs.data_shards + i)) shards := by
  have kept : ∀ no ∈ (keptParity rs n marks j).take (lostData rs marks j).length,
      no < rs.parity_shards ∧
        marks (n * rs.data_shards + j * rs.parity_shards + no) = false := by
    intro no member
    have inside := List.mem_filter.mp (List.mem_of_mem_take member)
    exact ⟨List.mem_range.mp inside.1, by simpa using inside.2⟩
  refine ⟨?_, ?_, fun no member => (kept no member).1, ?_, arrived.data, ?_⟩
  · have below : j * rs.data_shards + rs.data_shards ≤ n * rs.data_shards := by
      rw [← Nat.succ_mul]
      exact Nat.mul_le_mul_right _ within
    omega
  · exact (List.nodup_range.filter _).sublist (List.take_sublist _ _)
  · rw [List.length_take, Nat.min_eq_left recoverable]
    rfl
  · intro no member
    obtain ⟨below, there⟩ := kept no member
    rw [arrived.parity no below there]
    exact encoded j within no below

theorem reconstructGroup_eq (state : ℤ × Shards block_size) :
    reconstructGroup rs n marks state j =
      if 0 < (lostData rs marks j).length then
        if Recoverable rs n marks j then
          (state.1, (reed_solomon_decode rs (j * rs.data_shards)
            (((keptParity rs n marks j).take (lostData rs marks j).length).map
              (n * rs.data_shards + j * rs.parity_shards + ·))
            ((keptParity rs n marks j).take (lostData rs marks j).length)
            (lostData rs marks j) state.2).2)
        else (-1, state.2)
      else state := by
  have nos_eq : validFec (fun i => marks (n * rs.data_shards + j * rs.parity_shards + i))
      ((List.range rs.data_shards).filter fun i => marks (j * rs.data_shards + i)).length
      (List.range rs.parity_shards) [] =
        (keptParity rs n marks j).take (lostData rs marks j).length :=
    validFec_eq (fun i => marks (n * rs.data_shards + j * rs.parity_shards + i)) _ _ []
  have count : (lostData rs marks j).length =
      ((keptParity rs n marks j).take (lostData rs marks j).length).length ↔
        Recoverable rs n marks j := by
    rw [List.length_take, Recoverable]
    omega
  unfold reconstructGroup
  dsimp only
  rw [nos_eq]
  exact if_congr Iff.rfl (if_congr count rfl rfl) rfl

/-- A group that can be repaired is, and one that cannot be is left as it is. -/
theorem reconstructGroup_spec (codec : Codec rs) {state : ℤ × Shards block_size} (within : j < n)
    (encoded : Encoded rs n sent) (arrived : Arrived rs n marks sent j state.2) :
    (Recoverable rs n marks j →
      (reconstructGroup rs n marks state j).1 = state.1 ∧
      ∀ i < rs.data_shards, (reconstructGroup rs n marks state j).2 (j * rs.data_shards + i) =
        sent (j * rs.data_shards + i)) ∧
    (¬ Recoverable rs n marks j → reconstructGroup rs n marks state j = (-1, state.2)) ∧
    ∀ block, (∀ i < rs.data_shards, j * rs.data_shards + i ≠ block) →
      (reconstructGroup rs n marks state j).2 block = state.2 block := by
  rw [reconstructGroup_eq]
  by_cases some_lost : 0 < (lostData rs marks j).length
  · rw [if_pos some_lost]
    by_cases recoverable : Recoverable rs n marks j
    · obtain ⟨restored, others⟩ :=
        (recoverable.received within encoded arrived).decode codec
      rw [if_pos recoverable]
      exact ⟨fun _ => ⟨rfl, restored⟩, fun none => absurd recoverable none, others⟩
    · rw [if_neg recoverable]
      exact ⟨fun here => absurd here recoverable, fun _ => rfl, fun _ _ => rfl⟩
  · have none_lost : lostData rs marks j = [] := List.eq_nil_of_length_eq_zero (by omega)
    have recoverable : Recoverable rs n marks j := by
      rw [Recoverable, none_lost]
      exact Nat.zero_le _
    rw [if_neg some_lost]
    refine ⟨fun _ => ⟨rfl, fun i below => arrived.data i below ?_⟩,
      fun none => absurd recoverable none, fun _ _ => rfl⟩
    have absent := List.filter_eq_nil_iff.mp none_lost i (List.mem_range.mpr below)
    exact Bool.eq_false_of_not_eq_true absent

/-- The groups before `groups` are repaired as far as they can be. -/
structure Repaired (rs : ReedSolomon) (n : ℕ) (marks : ℕ → Bool) (sent received : Shards block_size)
    (groups : ℕ) (state : ℤ × Shards block_size) : Prop where
  restored : ∀ j < groups, Recoverable rs n marks j → ∀ i < rs.data_shards,
    state.2 (j * rs.data_shards + i) = sent (j * rs.data_shards + i)
  given_up : ∀ j < groups, ¬ Recoverable rs n marks j → ∀ i < rs.data_shards,
    state.2 (j * rs.data_shards + i) = received (j * rs.data_shards + i)
  others : ∀ block ≥ groups * rs.data_shards, state.2 block = received block
  error : state.1 = if ∀ j < groups, Recoverable rs n marks j then 0 else -1

theorem Repaired.group (codec : Codec rs) {received : Shards block_size}
    {state : ℤ × Shards block_size} (repaired : Repaired rs n marks sent received j state)
    (within : j < n) (encoded : Encoded rs n sent)
    (arrived : ∀ j < n, Arrived rs n marks sent j received) :
    Repaired rs n marks sent received (j + 1) (reconstructGroup rs n marks state j) := by
  have here : Arrived rs n marks sent j state.2 := by
    constructor
    · intro i below there
      rw [repaired.others _ (by omega)]
      exact (arrived j within).data i below there
    · intro i below there
      have low : j * rs.data_shards ≤ n * rs.data_shards :=
        Nat.mul_le_mul_right _ (Nat.le_of_lt within)
      rw [repaired.others _ (by omega)]
      exact (arrived j within).parity i below there
  obtain ⟨restores, leaves, elsewhere⟩ := reconstructGroup_spec codec within encoded here
  have earlier_place : ∀ g < j, ∀ i < rs.data_shards, ∀ k < rs.data_shards,
      j * rs.data_shards + k ≠ g * rs.data_shards + i := by
    intro g before i hi k hk same
    have := (place_inj hk hi same).1
    omega
  refine ⟨?_, ?_, ?_, ?_⟩
  · intro g before recoverable i below
    rcases Nat.lt_succ_iff_lt_or_eq.mp before with earlier | rfl
    · rw [elsewhere _ (earlier_place g earlier i below)]
      exact repaired.restored g earlier recoverable i below
    · exact (restores recoverable).2 i below
  · intro g before lost i below
    rcases Nat.lt_succ_iff_lt_or_eq.mp before with earlier | rfl
    · rw [elsewhere _ (earlier_place g earlier i below)]
      exact repaired.given_up g earlier lost i below
    · rw [leaves lost]
      exact repaired.others _ (Nat.le_add_right _ _)
  · intro block beyond
    rw [Nat.succ_mul] at beyond
    rw [elsewhere block (fun i below same => by omega)]
    exact repaired.others block (by omega)
  · by_cases recoverable : Recoverable rs n marks j
    · rw [(restores recoverable).1, repaired.error]
      refine if_congr ⟨?_, fun all g before => all g (Nat.lt_succ_of_lt before)⟩ rfl rfl
      intro all g before
      rcases Nat.lt_succ_iff_lt_or_eq.mp before with earlier | rfl
      · exact all g earlier
      · exact recoverable
    · rw [leaves recoverable, if_neg fun all => recoverable (all j (Nat.lt_succ_self j))]

/-- From blocks of which any may be lost, reconstruction restores every group that has kept as
many parity blocks as it has lost data blocks, leaves the other groups as they came, and returns
zero exactly when there is none of these. -/
theorem reed_solomon_reconstruct_repairs (codec : Codec rs) (encoded : Encoded rs n sent)
    {received : Shards block_size} (arrived : ∀ j < n, Arrived rs n marks sent j received) :
    Repaired rs n marks sent received n
      (reed_solomon_reconstruct rs marks (n * rs.shards) received) := by
  have positive : 0 < rs.shards := by
    rw [codec.shards]
    exact Nat.add_pos_left codec.some_data _
  unfold reed_solomon_reconstruct
  dsimp only
  rw [Nat.mul_div_cancel n positive]
  refine loop_invariant (Repaired rs n marks sent received) (Nat.zero_le n) ⟨?_, ?_, ?_, ?_⟩ ?_
  · exact fun j none => absurd none (Nat.not_lt_zero j)
  · exact fun j none => absurd none (Nat.not_lt_zero j)
  · exact fun _ _ => rfl
  · exact (if_pos fun j none => absurd none (Nat.not_lt_zero j)).symm
  · exact fun j state _ within repaired => repaired.group codec within encoded arrived

end Reconstruction

section Construction

theorem multiply1_eq (a b : ℕ → ℕ → Gf) (ac r c : ℕ) :
    multiply1 a ac b r c = ∑ i ∈ Finset.range ac, a r i * b i c := by
  refine loop_invariant (fun n tg => tg = ∑ i ∈ Finset.range n, a r i * b i c)
    (Nat.zero_le ac) rfl ?_
  rintro i tg - - rfl
  rw [gf_mul_eq, Finset.sum_range_succ]

theorem square_identity (k : ℕ) :
    Matrix.of (square k (sub_matrix (fun row col => if row = col then 1 else 0) 0 0)) = 1 := by
  funext i j
  rw [Matrix.one_apply]
  simp [square, sub_matrix, Fin.ext_iff]

/-- The inverse of the identity, as `reed_solomon_new` computes it. -/
theorem invert_identity (k : ℕ) :
    (invert_mat (square k (sub_matrix (fun row col => if row = col then 1 else 0) 0 0))).1 = 0 ∧
    ∀ i < k, ∀ c < k, spread (invert_mat
      (square k (sub_matrix (fun row col => if row = col then 1 else 0) 0 0))).2 i c =
        if i = c then 1 else 0 := by
  obtain ⟨zero_iff, inverse⟩ :=
    invert_mat_spec (square k (sub_matrix (fun row col => if row = col then 1 else 0) 0 0))
  rw [square_identity] at zero_iff inverse
  have done := zero_iff.mpr isUnit_one
  have one := inverse done
  rw [mul_one] at one
  refine ⟨done, fun i hi c hc => ?_⟩
  have entry := congrFun (congrFun one ⟨i, hi⟩) ⟨c, hc⟩
  rw [Matrix.one_apply] at entry
  unfold spread
  rw [dif_pos ⟨hi, hc⟩]
  exact entry.trans (if_congr Fin.mk_eq_mk rfl rfl)

/-- The points of the Cauchy matrix. -/
def point (number : ℕ) : Gf := ⟨UInt8.ofNat number⟩

theorem point_inj {a b : ℕ} (ha : a < 256) (hb : b < 256) (same : point a = point b) : a = b := by
  have bytes := congrArg UInt8.toNat (Gf.mk.inj same)
  rwa [UInt8.toNat_ofNat_of_lt' ha, UInt8.toNat_ofNat_of_lt' hb] at bytes

theorem point_xor (a b : ℕ) : point (a ^^^ b) = point a - point b := by
  rw [sub_eq]
  exact congrArg Gf.mk (UInt8.ofNat_xor a b)

/-- For every size it accepts, `reed_solomon_new` makes a codec whose parity recovers any loss. -/
theorem reed_solomon_new_codec {data_shards parity_shards : ℤ} {rs : ReedSolomon}
    (made : reed_solomon_new data_shards parity_shards = some rs) :
    Codec rs ∧ (rs.data_shards : ℤ) = data_shards ∧ (rs.parity_shards : ℤ) = parity_shards := by
  unfold reed_solomon_new DATA_SHARDS_MAX at made
  split_ifs at made with refused
  obtain ⟨small, some_data, some_parity⟩ : data_shards + parity_shards ≤ 255 ∧ 0 < data_shards ∧
      0 < parity_shards := by omega
  obtain ⟨ds, rfl⟩ := Int.eq_ofNat_of_zero_le (Int.le_of_lt some_data)
  obtain ⟨ps, rfl⟩ := Int.eq_ofNat_of_zero_le (Int.le_of_lt some_parity)
  dsimp only [Int.toNat_natCast] at made
  obtain ⟨inverted, identity⟩ := invert_identity ds
  rw [if_neg (not_not.mpr inverted)] at made
  cases made
  refine ⟨⟨rfl, Int.natCast_pos.mp some_data, ?_, ?_, ?_⟩, rfl, rfl⟩
  · intro i hi c hc
    have data : ¬ ds ≤ i := Nat.not_le_of_lt hi
    refine (if_neg data).trans ?_
    rw [multiply1_eq, Finset.sum_eq_single i]
    · rw [if_pos rfl, one_mul, identity i hi c hc]
    · intro k _ differs
      rw [if_neg differs.symm, zero_mul]
    · exact fun absent => absurd (Finset.mem_range.mpr hi) absent
  · intro j _ c _
    exact congrArg (cauchyRows ds ps _ (ds + j)) (Nat.zero_add c).symm
  · have cauchy := @strong_cauchy Gf _ (Fin ps) (Fin ds) _ (fun c => point (ps + c))
      (fun j => point j)
      (fun c d same => Fin.ext (by have := point_inj (by omega) (by omega) same; omega))
      (fun j k same => Fin.ext (point_inj (by omega) (by omega) same))
      (fun c j same => by have := point_inj (by omega) (by omega) same; omega)
    have parity : ∀ (m : ℕ → ℕ → Gf) (j c : ℕ), sub_matrix (cauchyRows ds ps m) ds 0 j c =
        (point (ps + c) - point j)⁻¹ := by
      intro m j c
      rw [sub_matrix, cauchyRows, if_pos (Nat.le_add_right ds j), Nat.zero_add,
        Nat.add_sub_cancel_left, gf_inverse_eq, ← point_xor]
      rfl
    simpa only [parity] using cauchy

theorem reed_solomon_new_isSome (data_shards parity_shards : ℤ) :
    (reed_solomon_new data_shards parity_shards).isSome = true ↔
      0 < data_shards ∧ 0 < parity_shards ∧ data_shards + parity_shards ≤ 255 := by
  unfold reed_solomon_new DATA_SHARDS_MAX
  split_ifs with refused
  · simp
    omega
  · dsimp only
    rw [if_neg (not_not.mpr (invert_identity data_shards.toNat).1)]
    simp
    omega

/-- Whatever blocks of an encoded buffer are lost, every group that keeps as many parity blocks
as it loses data blocks comes back, the others stay as received, and the result tells whether
there is any of these. -/
theorem encode_reconstruct {data_shards parity_shards : ℤ} {rs : ReedSolomon}
    (made : reed_solomon_new data_shards parity_shards = some rs) (n : ℕ) (marks : ℕ → Bool)
    (shards received : Shards block_size)
    (arrived : ∀ block < n * rs.shards, marks block = false →
      received block = reed_solomon_encode rs (n * rs.shards) shards block) :
    let repaired := reed_solomon_reconstruct rs marks (n * rs.shards) received
    repaired.1 = (if ∀ j < n, Recoverable rs n marks j then 0 else -1) ∧
      ∀ j < n, ∀ i < rs.data_shards, repaired.2 (j * rs.data_shards + i) =
        if Recoverable rs n marks j then shards (j * rs.data_shards + i)
        else received (j * rs.data_shards + i) := by
  intro repaired
  obtain ⟨codec, -, -⟩ := reed_solomon_new_codec made
  obtain ⟨encoded, kept⟩ := reed_solomon_encode_spec codec n shards
  have total : n * rs.shards = n * rs.data_shards + n * rs.parity_shards := by
    rw [codec.shards, Nat.mul_add]
  have arrivals : ∀ j < n, Arrived rs n marks
      (reed_solomon_encode rs (n * rs.shards) shards) j received := by
    intro j within
    constructor
    · intro i below there
      have := place_lt below within
      exact arrived _ (by omega) there
    · intro i below there
      have := place_lt below within
      exact arrived _ (by omega) there
  have whole := reed_solomon_reconstruct_repairs codec encoded arrivals
  refine ⟨whole.error, fun j within i below => ?_⟩
  split_ifs with recoverable
  · rw [← kept _ (Or.inl (place_lt below within))]
    exact whole.restored j within recoverable i below
  · exact whole.given_up j within recoverable i below

/-- Two data blocks and one parity block, the second data block lost and overwritten. -/
theorem encode_reconstruct_two_one : ∃ rs, reed_solomon_new 2 1 = some rs ∧
    let sent := reed_solomon_encode rs (1 * rs.shards) fun block (_ : Fin 1) => point (block + 7)
    let repaired := reed_solomon_reconstruct rs (fun block => block == 1) (1 * rs.shards)
      (update sent 1 fun _ => 0)
    repaired.1 = 0 ∧ repaired.2 1 = fun _ => point 8 := by
  obtain ⟨rs, made⟩ :=
    Option.isSome_iff_exists.mp ((reed_solomon_new_isSome 2 1).mpr (by decide))
  refine ⟨rs, made, ?_⟩
  obtain ⟨error, data⟩ := encode_reconstruct made 1 (fun block => block == 1)
    (fun block (_ : Fin 1) => point (block + 7))
    (update (reed_solomon_encode rs (1 * rs.shards) fun block (_ : Fin 1) => point (block + 7)) 1
      fun _ => 0)
    (fun block _ there => update_of_ne (fun same => by simp [same] at there) _ _)
  obtain ⟨-, data_shards, parity_shards⟩ := reed_solomon_new_codec made
  have two : rs.data_shards = 2 := by exact_mod_cast data_shards
  have one : rs.parity_shards = 1 := by exact_mod_cast parity_shards
  have recoverable : Recoverable rs 1 (fun block => block == 1) 0 := by
    rw [Recoverable, lostData, keptParity, two, one]
    decide
  have all : ∀ j < 1, Recoverable rs 1 (fun block => block == 1) j := by
    intro j below
    rw [Nat.lt_one_iff.mp below]
    exact recoverable
  rw [if_pos all] at error
  have second := data 0 Nat.one_pos 1 (by omega)
  rw [if_pos recoverable, Nat.zero_mul, Nat.zero_add] at second
  exact ⟨error, second⟩

end Construction

end MoonlightWii.Fec.ShardRecovery
