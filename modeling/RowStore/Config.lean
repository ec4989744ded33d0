import RowStore.Failure

/-!
# Settings

The page size that a pool and its table files share, and the number of pages that the pool keeps.
-/

namespace RowStore

structure Config where
  pageSize : Nat
  poolPages : Nat
  deriving DecidableEq

namespace Config

def standard : Config := ⟨4096, 50⟩

instance : Inhabited Config := ⟨standard⟩

/-- A pool needs room for a page, and a page needs a byte. -/
def check (config : Config) : Except StoreError Unit :=
  if config.poolPages = 0 then .error (.capacityInvalid config.poolPages)
  else if config.pageSize = 0 then .error (.pageSizeInvalid config.pageSize)
  else .ok ()

theorem check_eq_ok_iff (config : Config) :
    config.check = .ok () ↔ 0 < config.poolPages ∧ 0 < config.pageSize := by
  unfold check
  split
  · simp_all
  · split
    · simp_all
    · simp_all
      omega

theorem check_standard : standard.check = .ok () := rfl

end Config

end RowStore
