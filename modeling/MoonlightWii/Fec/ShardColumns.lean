import MoonlightWii.Fec.ShardRecovery

/-!
# Columns of shards

Encoding and reconstruction treat every byte of the blocks alike, so that some columns can be
looked at without the others.
-/

set_option autoImplicit false

namespace MoonlightWii.Fec.ShardColumns

open Function ByteField InvertMat ShardRecovery Foundation.CountedLoop Foundation.ErasureCode

variable {size width : ℕ}

/-- Some of the columns. -/
def columns (pick : Fin width → Fin size) (shards : Shards size) : Shards width :=
  fun block i => shards block (pick i)

variable (pick : Fin width → Fin size) {rs : ReedSolomon}

theorem columns_update (shards : Shards size) (block : ℕ) (bytes : Fin size → Gf) :
    columns pick (update shards block bytes) =
      update (columns pick shards) block fun i => bytes (pick i) := by
  funext other i
  unfold columns
  by_cases same : other = block
  · rw [same, update_self, update_self]
  · rw [update_of_ne same, update_of_ne same]

theorem codeShard_columns (matrixRows : ℕ → ℕ → Gf) (inputs outputs : ℕ → ℕ) (c : ℕ)
    (shards : Shards size) (iRow : ℕ) :
    codeShard matrixRows inputs outputs c (columns pick shards) iRow =
      columns pick (codeShard matrixRows inputs outputs c shards iRow) := by
  unfold codeShard
  dsimp only
  rw [columns_update]
  congr 1
  funext i
  split_ifs
  · unfold mul
    split_ifs
    · rfl
    · rfl
  · rw [addmul_eq, addmul_eq]
    rfl

theorem code_some_shards_columns (matrixRows : ℕ → ℕ → Gf) (inputs outputs : ℕ → ℕ)
    (dataShards outputCount : ℕ) (shards : Shards size) :
    code_some_shards matrixRows inputs outputs dataShards outputCount (columns pick shards) =
      columns pick (code_some_shards matrixRows inputs outputs dataShards outputCount shards) := by
  have row : ∀ (shards : Shards size) (c : ℕ),
      loop 0 outputCount (codeShard matrixRows inputs outputs c) (columns pick shards) =
        columns pick (loop 0 outputCount (codeShard matrixRows inputs outputs c) shards) :=
    fun shards c => List.foldl_hom _ fun shards iRow => codeShard_columns pick _ _ _ c shards iRow
  exact List.foldl_hom _ row

theorem reed_solomon_encode_columns (rs : ReedSolomon) (nr_shards : ℕ) (shards : Shards size) :
    reed_solomon_encode rs nr_shards (columns pick shards) =
      columns pick (reed_solomon_encode rs nr_shards shards) :=
  List.foldl_hom _ fun shards _ => code_some_shards_columns pick _ _ _ _ _ shards

theorem reed_solomon_decode_columns (rs : ReedSolomon) (data_blocks : ℕ)
    (dec_fec_blocks fec_block_nos erased_blocks : List ℕ) (shards : Shards size) :
    (reed_solomon_decode rs data_blocks dec_fec_blocks fec_block_nos erased_blocks
        (columns pick shards)).2 =
      columns pick (reed_solomon_decode rs data_blocks dec_fec_blocks fec_block_nos erased_blocks
        shards).2 := by
  unfold reed_solomon_decode
  dsimp only
  split_ifs
  · rfl
  · exact code_some_shards_columns pick _ _ _ _ _ shards

theorem reconstructGroup_columns (rs : ReedSolomon) (n : ℕ) (marks : ℕ → Bool)
    (state : ℤ × Shards size) (j : ℕ) :
    reconstructGroup rs n marks (state.1, columns pick state.2) j =
      ((reconstructGroup rs n marks state j).1,
        columns pick (reconstructGroup rs n marks state j).2) := by
  unfold reconstructGroup
  dsimp only
  split_ifs
  · exact congrArg _ (reed_solomon_decode_columns pick _ _ _ _ _ _)
  · rfl
  · rfl

theorem reed_solomon_reconstruct_columns (rs : ReedSolomon) (marks : ℕ → Bool) (nr_shards : ℕ)
    (shards : Shards size) :
    reed_solomon_reconstruct rs marks nr_shards (columns pick shards) =
      ((reed_solomon_reconstruct rs marks nr_shards shards).1,
        columns pick (reed_solomon_reconstruct rs marks nr_shards shards).2) := by
  have groups : ∀ (n : ℕ) (state : ℤ × Shards size),
      loop 0 n (reconstructGroup rs n marks) (state.1, columns pick state.2) =
        ((loop 0 n (reconstructGroup rs n marks) state).1,
          columns pick (loop 0 n (reconstructGroup rs n marks) state).2) := fun n state =>
    List.foldl_hom (fun state : ℤ × Shards size => (state.1, columns pick state.2))
      fun state j => reconstructGroup_columns pick rs n marks state j
  exact groups _ (0, shards)

/-- Whether reconstruction succeeds depends on the marks only. -/
theorem reconstruct_result {data_shards parity_shards : ℤ}
    (made : reed_solomon_new data_shards parity_shards = some rs) (marks : ℕ → Bool)
    (received : Shards size) :
    (reed_solomon_reconstruct rs marks rs.shards received).1 =
      if Recoverable rs 1 marks 0 then 0 else -1 := by
  let pick : Fin 0 → Fin size := fun none => none.elim0
  have result := (encode_reconstruct made 1 marks (columns pick received) (columns pick received)
    fun block _ _ => funext fun none => none.elim0).1
  rw [Nat.one_mul, reed_solomon_reconstruct_columns] at result
  refine result.trans (if_congr ?_ rfl rfl)
  constructor
  · exact fun all => all 0 Nat.one_pos
  · intro first j below
    rw [Nat.lt_one_iff.mp below]
    exact first

/-- When reconstruction succeeds, the data of a column is what was encoded in it, whatever the
other columns are. -/
theorem column_recovered {data_shards parity_shards : ℤ}
    (made : reed_solomon_new data_shards parity_shards = some rs) {marks : ℕ → Bool}
    {sent received : Shards size} {c : Fin size}
    (arrived : ∀ block < rs.shards, marks block = false →
      received block c = reed_solomon_encode rs rs.shards sent block c)
    (success : (reed_solomon_reconstruct rs marks rs.shards received).1 = 0) :
    ∀ i < rs.data_shards,
      (reed_solomon_reconstruct rs marks rs.shards received).2 i c = sent i c := by
  obtain ⟨codec, -, -⟩ := reed_solomon_new_codec made
  let pick : Fin 1 → Fin size := fun _ => c
  obtain ⟨encoded, kept⟩ := reed_solomon_encode_spec codec 1 (columns pick sent)
  have total : 1 * rs.shards = 1 * rs.data_shards + 1 * rs.parity_shards := by
    rw [codec.shards, Nat.mul_add]
  rw [Nat.one_mul, reed_solomon_encode_columns] at encoded kept
  have whole : ∀ block < rs.shards, marks block = false →
      columns pick received block = columns pick (reed_solomon_encode rs rs.shards sent) block :=
    fun block below there => funext fun _ => arrived block below there
  have arrivals : ∀ j < 1, Arrived rs 1 marks
      (columns pick (reed_solomon_encode rs rs.shards sent)) j (columns pick received) := by
    intro j within
    constructor
    · intro i below there
      have := place_lt below within
      exact whole _ (by omega) there
    · intro i below there
      have := place_lt below within
      exact whole _ (by omega) there
  have repaired := reed_solomon_reconstruct_repairs codec encoded arrivals
  rw [Nat.one_mul, reed_solomon_reconstruct_columns] at repaired
  have recoverable : ∀ j < 1, Recoverable rs 1 marks j := by
    by_contra not_all
    have error := repaired.error
    rw [if_neg not_all] at error
    exact absurd (success.symm.trans error) (by decide)
  intro i below
  have restored := repaired.restored 0 Nat.one_pos (recoverable 0 Nat.one_pos) i below
  have same := kept i (Or.inl (by omega))
  rw [Nat.one_mul] at same
  rw [Nat.zero_mul, Nat.zero_add] at restored
  exact congrFun (restored.trans same) 0

end MoonlightWii.Fec.ShardColumns
