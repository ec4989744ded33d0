import RowStore.Proofs.Pool.Refinement

/-!
# Pools that were filled

A pool that carried out calls on opened files has plain tables, and every further call has the outcome that it has on
them.
-/

namespace RowStore.PoolId

/-- The pool carried out calls on opened files with the pages `initial`, and the plain tables are these by now. The
files can take their pages. -/
inductive Filled (pool : PoolId) (files : List TableFile) : Contents → Store → Prop where
  | intro {plans : List TablePlan} {config : Config} {disk : Disk} {store : Store} {initial : Contents}
      {calls : List PoolCall}
      (setUp : Store.setUp plans config (.ofDisk disk) = .ok (files, pool) store)
      (ids : (files.map TableFile.id).Nodup) (names : (plans.map TablePlan.name).Nodup)
      (stored : ∀ file ∈ files, ∃ bytes, store.disk.read file.place = .ok bytes ∧
        bytes.toList = (initial file.id).flatMap file.image)
      (sound : ∀ file ∈ files, ∀ number rows, (initial file.id)[number]? = some rows → file.Stores number rows)
      (made : ∀ call ∈ calls, call.Made) (fit : (Contents.run files initial calls).2.Fit files) :
      Filled pool files (Contents.run files initial calls).2 (pool.run calls store).2

/-- Every further call has the outcome that it has on these plain tables, as long as the files can take their pages. -/
def Answers (pool : PoolId) (files : List TableFile) (contents : Contents) (store : Store) : Prop :=
  ∀ calls : List PoolCall, (∀ call ∈ calls, call.Made) → (Contents.run files contents calls).2.Fit files →
    (pool.run calls store).1 = (Contents.run files contents calls).1

variable {pool : PoolId} {tables : Tables} {capacity : Nat} {files : List TableFile} {contents : Contents}
  {store : Store}

theorem Shows.answers (h : pool.Shows tables capacity contents store) : pool.Answers tables.files contents store := by
  intro calls made fit
  obtain ⟨store', run_eq, -⟩ := h.run_ok made fit
  rw [run_eq]

theorem Filled.fit (h : pool.Filled files contents store) : contents.Fit files := by
  cases h with
  | intro setUp ids names stored sound made fit => exact fit

theorem Filled.shows (h : pool.Filled files contents store) :
    ∃ tables capacity, tables.files = files ∧ pool.Shows tables capacity contents store := by
  cases h with
  | @intro plans config disk start initial calls setUp ids names stored sound made fit =>
    have fit₀ := Contents.Fit.of_run fit
    obtain ⟨tables, rfl, -, represents⟩ := Store.of_setUp setUp ids names initial stored
      (fun file mem => Nat.le_of_lt (fit₀ file mem).1) (fun file mem => (fit₀ file mem).2) sound
    obtain ⟨store', run_eq, shows⟩ := Shows.run_ok ⟨_, [], represents⟩ made fit
    rw [run_eq]
    exact ⟨tables, config.poolPages, rfl, shows⟩

/-! ## A small pool -/

/-- Three rows are stored, on two pages of which the pool can keep one. -/
def smallInserts : List PoolCall :=
  [.insert ⟨1⟩ smallFile.id (smallRow 1 none), .insert ⟨1⟩ smallFile.id (smallRow 2 none),
    .insert ⟨2⟩ smallFile.id (smallRow 3 none)]

def smallContents : Contents := (Contents.run [smallFile] (fun _ => []) smallInserts).2

def smallStore : Store :=
  (PoolId.run ⟨0⟩ smallInserts ((Store.setUp [smallPlan] ⟨9, 1⟩).after (.ofDisk default))).2

theorem filled_small : PoolId.Filled ⟨0⟩ [smallFile] smallContents smallStore := by
  have setUp : Store.setUp [smallPlan] ⟨9, 1⟩ (.ofDisk default) =
      .ok ([smallFile], ⟨0⟩) ((Store.setUp [smallPlan] ⟨9, 1⟩).after (.ofDisk default)) := rfl
  refine .intro setUp (List.nodup_singleton _) (List.nodup_singleton _) ?stored ?sound ?made ?fit
  case stored =>
    intro file mem
    cases List.mem_singleton.mp mem
    exact ⟨.empty, rfl, rfl⟩
  case sound =>
    intro file mem number rows here
    cases here
  case made => simp [smallInserts, PoolCall.Made, made_smallRow]
  case fit =>
    intro file mem
    cases List.mem_singleton.mp mem
    exact ⟨by decide +kernel, by decide +kernel⟩

end RowStore.PoolId
