import RowStore.Proofs.Pool.RowSteps

/-!
# Setting up a store

Table files are opened and registered in turn, and a pool is made. When the files can be told apart, the catalog knows
each of them under its number, and files without pages are tables without rows.
-/

namespace RowStore

/-! ## The catalog after registering -/

/-- The catalog has these tables and no others. -/
structure Catalog.Lists (catalog : Catalog) (entries : List Table) : Prop where
  tables : ∀ id, catalog.tables.get? id = entries.find? fun entry => entry.file.id = id
  names : ∀ name,
    catalog.names.get? name = (entries.find? fun entry => entry.name = name).map fun entry => entry.file.id

theorem Catalog.lists_empty : Catalog.empty.Lists [] := ⟨fun _ => rfl, fun _ => rfl⟩

theorem Catalog.Lists.register {catalog : Catalog} {entries : List Table} (h : catalog.Lists entries) (file : TableFile)
    (name : String) (new_id : file.id ∉ entries.map fun entry => entry.file.id)
    (new_name : name ∉ entries.map Table.name)
    (primaryKey : String) : (catalog.register file name primaryKey).Lists (entries ++ [⟨file, name, primaryKey⟩]) := by
  have no_id : catalog.tables.get? file.id = none := by
    rw [h.tables, List.find?_eq_none]
    exact fun entry mem same => new_id (of_decide_eq_true same ▸ List.mem_map_of_mem mem)
  have no_name : catalog.names.get? name = none := by
    rw [h.names, List.find?_eq_none.mpr, Option.map_none]
    exact fun entry mem same => new_name (of_decide_eq_true same ▸ List.mem_map_of_mem mem)
  have entered : catalog.register file name primaryKey = catalog.enter ⟨file, name, primaryKey⟩ := by
    rw [Catalog.register, forgetId, no_id]
    simp only [forgetName, no_name]
  rw [entered]
  constructor
  · intro id
    rw [enter, Assoc.get?_insert, List.find?_append, List.find?_singleton]
    by_cases same : id = file.id
    · subst same
      rw [if_pos rfl, ← h.tables, no_id]
      simp
    · rw [if_neg same, h.tables]
      simp [Ne.symm same]
  · intro other
    rw [enter, Assoc.get?_insert, List.find?_append, List.find?_singleton]
    by_cases same : other = name
    · subst same
      have absent := no_name
      rw [h.names, Option.map_eq_none_iff] at absent
      rw [if_pos rfl, absent]
      simp
    · rw [if_neg same, h.names]
      simp [Ne.symm same]

theorem Catalog.Lists.file_eq {catalog : Catalog} {entries : List Table} (h : catalog.Lists entries) (id : TableId) :
    catalog.file id = TableFile.among (entries.map Table.file) id := by
  unfold Catalog.file Catalog.table TableFile.among
  rw [h.tables, List.find?_map]
  simp only [Function.comp_def]
  cases entries.find? fun entry => entry.file.id = id <;> rfl

/-! ## Opening and registering -/

/-- A table to be opened: where its file is, which rows it has, and how it is called. -/
structure TablePlan where
  path : String
  schema : Schema
  pageSize : Nat
  name : String
  primaryKey : String

namespace Store

/-- Opens table files, and registers each as it is opened. -/
def openTables : List TablePlan → Action (List Table)
  | [] => return []
  | plan :: plans => do
    let file ← TableFile.openAt plan.path plan.schema plan.pageSize
    register file plan.name plan.primaryKey
    return ⟨file, plan.name, plan.primaryKey⟩ :: (← openTables plans)

/-- Opens and registers tables, and makes a pool. -/
def setUp (plans : List TablePlan) (config : Config) : Action (List TableFile × PoolId) := do
  let opened ← openTables plans
  return (opened.map Table.file, ← addPool config)

end Store

def TableFile.opened (place : Place) (schema : Schema) (pageSize serial : Nat) : TableFile :=
  ⟨idOfPath place.text, place, schema, pageSize, serial⟩

theorem TableFile.openAt_ok {path : String} {schema : Schema} {pageSize : Nat} {place : Place} (store : Store)
    (sizes_eq : checkSizes schema pageSize = .ok ()) (place_eq : store.disk.locate path = .ok place) :
    openAt path schema pageSize store = .ok (opened place schema pageSize store.meters.size)
      { store with disk := store.disk.create place, meters := store.meters.push ⟨0, 0⟩ } := by
  unfold openAt
  rw [Action.bind_ok (Action.attempt_apply_ok sizes_eq store), Action.bind_ok (Action.get_apply store),
    Action.bind_ok (Action.check_apply_ok place_eq store)]
  rfl

theorem TableFile.of_openAt {path : String} {schema : Schema} {pageSize : Nat} {file : TableFile}
    {store store' : Store} (h : openAt path schema pageSize store = .ok file store') :
    checkSizes schema pageSize = .ok () ∧ ∃ place, store.disk.locate path = .ok place ∧
      file = opened place schema pageSize store.meters.size ∧
      store' = { store with disk := store.disk.create place, meters := store.meters.push ⟨0, 0⟩ } := by
  have run := h
  unfold openAt at h
  obtain ⟨_, store₁, attempt_eq, h₁⟩ := Action.of_bind_ok h
  obtain ⟨sizes_eq, rfl⟩ := Action.of_attempt_ok attempt_eq
  obtain ⟨_, _, get_eq, h₂⟩ := Action.of_bind_ok h₁
  cases get_eq
  obtain ⟨place, store₂, check_eq, h₃⟩ := Action.of_bind_ok h₂
  obtain ⟨place_eq, rfl⟩ := Action.of_check_ok check_eq
  cases h₃
  exact ⟨sizes_eq, place, place_eq, rfl, rfl⟩

theorem Disk.SamePaths.isDirectory_eq {disk other : Disk} (h : disk.SamePaths other) (place : Place) :
    disk.isDirectory place = other.isDirectory place := by
  unfold Disk.isDirectory
  rw [h.1, h.2]

theorem Disk.SamePaths.follow_eq {disk other : Disk} (h : disk.SamePaths other) (place : Place) (parts : List String) :
    disk.follow place parts = other.follow place parts := by
  induction parts generalizing place with
  | nil => rfl
  | cons part parts ih => simp only [Disk.follow, h.isDirectory_eq, ih]

theorem Disk.SamePaths.locate_eq {disk other : Disk} (h : disk.SamePaths other) (path : String) :
    disk.locate path = other.locate path := by
  have start_eq : disk.startOf path = other.startOf path := by
    unfold Disk.startOf
    rw [h.1]
  simp only [Disk.locate, start_eq, h.follow_eq, h.isDirectory_eq]

theorem Disk.create_of_read {disk : Disk} {place : Place} {bytes : Bytes} (h : disk.read place = .ok bytes) :
    disk.create place = disk := by
  unfold Disk.read at h
  split at h
  · next found => rw [create, Assoc.contains, found, Option.isSome_some, if_pos rfl]
  · cases h

theorem Disk.create_samePaths (disk : Disk) (place : Place) : (disk.create place).SamePaths disk := by
  unfold Disk.create
  split <;> exact ⟨rfl, rfl⟩

def Disk.There (disk : Disk) (place : Place) : Prop := ∃ bytes, disk.read place = .ok bytes

theorem Disk.there_create (disk : Disk) (place : Place) : (disk.create place).There place := by
  unfold There create Assoc.contains
  cases found : disk.files.get? place with
  | none => exact ⟨.empty, read_write_self ..⟩
  | some bytes => exact ⟨bytes, by simp [read, found]⟩

theorem Disk.There.create {disk : Disk} {other : Place} (h : disk.There other) (place : Place) :
    (disk.create place).There other := by
  unfold Disk.create
  split
  · exact h
  · by_cases same : other = place
    · exact same ▸ ⟨.empty, read_write_self ..⟩
    · obtain ⟨bytes, read_eq⟩ := h
      exact ⟨bytes, by rw [read_write_of_ne _ _ same, read_eq]⟩

/-! ## Opening tables -/

namespace Store

variable {plans : List TablePlan} {opened before : List Table} {store store' : Store}

theorem of_openTables (h : openTables plans store = .ok opened store') (lists : store.catalog.Lists before)
    (ids : ((before ++ opened).map fun entry => entry.file.id).Nodup)
    (names : ((before ++ opened).map Table.name).Nodup) :
    store'.catalog.Lists (before ++ opened) ∧ store'.disk.SamePaths store.disk ∧ store'.pools = store.pools ∧
      ∀ entry ∈ opened, entry.file.Opened ∧ entry.file.id = TableFile.idOfPath entry.file.place.text := by
  induction plans generalizing opened before store with
  | nil =>
    cases h
    exact ⟨by rw [List.append_nil]; exact lists, ⟨rfl, rfl⟩, rfl, fun _ mem => absurd mem List.not_mem_nil⟩
  | cons plan plans ih =>
    unfold openTables at h
    obtain ⟨file, store₁, open_eq, h₁⟩ := Action.of_bind_ok h
    obtain ⟨_, store₂, register_eq, h₂⟩ := Action.of_bind_ok h₁
    cases register_eq
    obtain ⟨rest, store₃, rest_eq, h₃⟩ := Action.of_bind_ok h₂
    cases h₃
    obtain ⟨sizes_eq, place, place_eq, rfl, rfl⟩ := TableFile.of_openAt open_eq
    rw [List.append_cons] at ids names ⊢
    have ids₁ := ids
    have names₁ := names
    rw [List.map_append, List.nodup_append, List.map_append, List.nodup_append] at ids₁ names₁
    have lists₁ := lists.register (TableFile.opened place plan.schema plan.pageSize store.meters.size)
      plan.name (fun mem => ids₁.1.2.2 _ mem _ (List.mem_singleton_self _) rfl)
      (fun mem => names₁.1.2.2 _ mem _ (List.mem_singleton_self _) rfl) plan.primaryKey
    obtain ⟨lists', paths', pools_eq', opened'⟩ := ih rest_eq lists₁ ids names
    refine ⟨lists', paths'.trans (Disk.create_samePaths ..), pools_eq', fun entry mem => ?_⟩
    rcases List.mem_cons.mp mem with rfl | mem
    · exact ⟨sizes_eq, rfl⟩
    · exact opened' entry mem

theorem names_of_openTables (h : openTables plans store = .ok opened store') :
    opened.map Table.name = plans.map TablePlan.name := by
  induction plans generalizing opened store with
  | nil => cases h; rfl
  | cons plan plans ih =>
    unfold openTables at h
    obtain ⟨file, store₁, open_eq, h₁⟩ := Action.of_bind_ok h
    obtain ⟨_, store₂, register_eq, h₂⟩ := Action.of_bind_ok h₁
    cases register_eq
    obtain ⟨rest, store₃, rest_eq, h₃⟩ := Action.of_bind_ok h₂
    cases h₃
    rw [List.map_cons, List.map_cons, ih rest_eq]

theorem there_of_openTables (h : openTables plans store = .ok opened store') :
    (∀ place, store.disk.There place → store'.disk.There place) ∧
      ∀ entry ∈ opened, store'.disk.There entry.file.place := by
  induction plans generalizing opened store with
  | nil => cases h; exact ⟨fun _ there => there, fun _ mem => absurd mem List.not_mem_nil⟩
  | cons plan plans ih =>
    unfold openTables at h
    obtain ⟨file, store₁, open_eq, h₁⟩ := Action.of_bind_ok h
    obtain ⟨_, store₂, register_eq, h₂⟩ := Action.of_bind_ok h₁
    cases register_eq
    obtain ⟨rest, store₃, rest_eq, h₃⟩ := Action.of_bind_ok h₂
    cases h₃
    obtain ⟨-, place, -, rfl, rfl⟩ := TableFile.of_openAt open_eq
    obtain ⟨stay, there⟩ := ih rest_eq
    refine ⟨fun other there' => stay other (there'.create place), fun entry mem => ?_⟩
    rcases List.mem_cons.mp mem with rfl | mem
    · exact stay place (store.disk.there_create place)
    · exact there entry mem

theorem openTables_again (h : openTables plans store = .ok opened store') (other : Store)
    (paths : other.disk.SamePaths store.disk) (serials : other.meters.size = store.meters.size)
    (there : ∀ entry ∈ opened, ∃ bytes, other.disk.read entry.file.place = .ok bytes) :
    ∃ other', openTables plans other = .ok opened other' ∧ other'.disk = other.disk := by
  induction plans generalizing opened store other with
  | nil => cases h; exact ⟨other, rfl, rfl⟩
  | cons plan plans ih =>
    unfold openTables at h
    obtain ⟨file, store₁, open_eq, h₁⟩ := Action.of_bind_ok h
    obtain ⟨_, store₂, register_eq, h₂⟩ := Action.of_bind_ok h₁
    cases register_eq
    obtain ⟨rest, store₃, rest_eq, h₃⟩ := Action.of_bind_ok h₂
    cases h₃
    obtain ⟨sizes_eq, place, place_eq, rfl, rfl⟩ := TableFile.of_openAt open_eq
    have place_eq' : other.disk.locate plan.path = .ok place := by rw [paths.locate_eq, place_eq]
    have open_eq' := TableFile.openAt_ok other sizes_eq place_eq'
    obtain ⟨bytes, read_eq⟩ := there _ List.mem_cons_self
    have create_eq : other.disk.create place = other.disk := Disk.create_of_read read_eq
    rw [create_eq, serials] at open_eq'
    obtain ⟨other', rest_eq', disk_eq⟩ := ih rest_eq { other with
        meters := other.meters.push ⟨0, 0⟩
        catalog := other.catalog.register (TableFile.opened place plan.schema plan.pageSize store.meters.size) plan.name
          plan.primaryKey } (paths.trans (Disk.create_samePaths ..).symm) (by simp [serials])
      fun entry mem => there entry (List.mem_cons_of_mem _ mem)
    refine ⟨other', ?_, disk_eq⟩
    unfold openTables
    rw [Action.bind_ok open_eq']
    exact (Action.bind_ok rest_eq').trans rfl

theorem of_addPool {config : Config} {pool : PoolId} (h : addPool config store = .ok pool store') :
    0 < config.poolPages ∧ pool = ⟨store.pools.size⟩ ∧
      store' = { store with pools := store.pools.push ⟨config.pageSize, Cache.fresh config.poolPages⟩ } := by
  unfold addPool at h
  obtain ⟨_, store₁, check_eq, h₁⟩ := Action.of_bind_ok h
  obtain ⟨valid, rfl⟩ := Action.of_check_ok check_eq
  obtain ⟨cache, store₂, new_eq, h₂⟩ := Action.of_bind_ok h₁
  obtain ⟨new_eq, rfl⟩ := Action.of_attempt_ok new_eq
  cases h₂
  have cache_eq : cache = Cache.fresh config.poolPages := by
    unfold Cache.new at new_eq
    split at new_eq
    · cases new_eq
    · split at new_eq <;> cases new_eq
      rfl
  exact ⟨((Config.check_eq_ok_iff config).mp valid).1, rfl, by rw [cache_eq]⟩

/-! ## Setting up -/

theorem tables_of_setUp {disk : Disk} {config : Config} {files : List TableFile} {pool : PoolId}
    (h : setUp plans config (ofDisk disk) = .ok (files, pool) store) (ids : (files.map TableFile.id).Nodup)
    (names : (plans.map TablePlan.name).Nodup) :
    ∃ tables : Tables, tables.files = files ∧ tables.origin = disk ∧
      (∀ table, store.catalog.file table = TableFile.among files table) ∧ store.disk.SamePaths disk ∧
      (∀ file ∈ files, store.disk.There file.place) ∧ 0 < config.poolPages ∧
      pool.Keeps config.poolPages [] store := by
  unfold setUp at h
  obtain ⟨opened, store₁, open_eq, h₁⟩ := Action.of_bind_ok h
  obtain ⟨pool', store₂, pool_eq, h₂⟩ := Action.of_bind_ok h₁
  cases h₂
  obtain ⟨pos, rfl, rfl⟩ := of_addPool pool_eq
  rw [List.map_map] at ids
  obtain ⟨lists, paths, pools_eq, opened_files⟩ := of_openTables open_eq Catalog.lists_empty ids
    (by rw [List.nil_append, names_of_openTables open_eq]; exact names)
  obtain ⟨-, there⟩ := there_of_openTables open_eq
  have files_opened : ∀ file ∈ opened.map Table.file,
      file.Opened ∧ file.id = TableFile.idOfPath file.place.text := fun file mem => by
    obtain ⟨entry, entry_mem, rfl⟩ := List.mem_map.mp mem
    exact opened_files entry entry_mem
  -- Files with one place would have one number.
  have places : ((opened.map Table.file).map TableFile.place).Nodup := by
    rw [← List.map_map] at ids
    refine List.Nodup.of_map (fun place => TableFile.idOfPath (Place.text place)) ?_
    rw [List.map_map]
    rw [List.map_congr_left fun file mem => (files_opened file mem).2] at ids
    exact ids
  refine ⟨⟨disk, opened.map Table.file, fun file mem => (files_opened file mem).1, by rw [List.map_map]; exact ids,
    places⟩, rfl, rfl, fun table => lists.file_eq table, paths, List.forall_mem_map.mpr there, pos, ?_⟩
  exact ⟨⟨config.pageSize, Cache.fresh config.poolPages⟩, by simp, ⟨[], Cache.valid_fresh _, rfl⟩, rfl⟩

theorem of_setUp {disk : Disk} {config : Config} {files : List TableFile} {pool : PoolId}
    (h : setUp plans config (ofDisk disk) = .ok (files, pool) store) (ids : (files.map TableFile.id).Nodup)
    (names : (plans.map TablePlan.name).Nodup) (contents : Contents)
    (kept : ∀ file ∈ files, ∃ bytes, store.disk.read file.place = .ok bytes ∧
      bytes.toList = (contents file.id).flatMap file.image)
    (numbered : ∀ file ∈ files, (contents file.id).length ≤ UInt32.size)
    (addressed : ∀ file ∈ files, (contents file.id).length * file.pageSize ≤ Disk.maxFileBytes)
    (sound : ∀ file ∈ files, ∀ number rows, (contents file.id)[number]? = some rows → file.Stores number rows) :
    ∃ tables : Tables, tables.files = files ∧ tables.origin = disk ∧
      pool.Represents tables config.poolPages contents contents [] store := by
  obtain ⟨tables, rfl, rfl, catalog_eq, paths, -, pos, keeps⟩ := tables_of_setUp h ids names
  refine ⟨tables, rfl, rfl, pos, keeps, ?_⟩
  exact
    { catalog_eq := catalog_eq
      paths := paths
      disk := kept
      counts := fun _ => rfl
      numbered := numbered
      addressed := addressed
      saved_sound := sound
      current_sound := sound
      ids := .nil
      frames := .nil
      entries := fun _ mem => absurd mem List.not_mem_nil
      others := fun _ _ => rfl }

end Store

/-! ## Setting up again -/

namespace Store

theorem addPool_ok {config : Config} (valid : config.check = .ok ()) (small : config.poolPages < Cache.capacityLimit)
    (store : Store) :
    addPool config store = .ok ⟨store.pools.size⟩
      { store with pools := store.pools.push ⟨config.pageSize, Cache.fresh config.poolPages⟩ } := by
  have pos := ((Config.check_eq_ok_iff config).mp valid).1
  unfold addPool
  rw [Action.bind_ok (Action.check_apply_ok valid store),
    Action.bind_ok (Action.attempt_apply_ok (Cache.new_eq_ok pos small) store)]
  rfl

theorem setUp_again {plans : List TablePlan} {config config' : Config} {disk disk' : Disk} {files : List TableFile}
    {pool : PoolId} {store : Store} (h : setUp plans config (ofDisk disk) = .ok (files, pool) store)
    (paths : disk'.SamePaths disk) (there : ∀ file ∈ files, ∃ bytes, disk'.read file.place = .ok bytes)
    (valid : config'.check = .ok ()) (small : config'.poolPages < Cache.capacityLimit) :
    ∃ pool' again, setUp plans config' (ofDisk disk') = .ok (files, pool') again ∧ again.disk = disk' := by
  unfold setUp at h
  obtain ⟨opened, store₁, open_eq, h₁⟩ := Action.of_bind_ok h
  obtain ⟨pool', store₂, pool_eq, h₂⟩ := Action.of_bind_ok h₁
  cases h₂
  obtain ⟨other, open_eq', disk_eq⟩ := openTables_again open_eq (ofDisk disk') paths rfl fun entry mem =>
    there entry.file (List.mem_map_of_mem mem)
  refine ⟨_, _, (Action.bind_ok open_eq').trans (Action.bind_ok (addPool_ok valid small other)), disk_eq⟩

end Store

/-! ## A small store -/

/-- A table of numbers, two to a page. -/
def smallPlan : TablePlan := ⟨"t", ⟨[⟨.int, none⟩]⟩, 9, "t", ""⟩

def smallFile : TableFile := .opened ["t"] ⟨[⟨.int, none⟩]⟩ 9 0

def smallRow (n : Int32) (id : Option RowId) : Row := ⟨⟨[⟨.int, none⟩]⟩, [.int n], id⟩

theorem made_smallRow (n : Int32) (id : Option RowId) : (smallRow n id).Made := by
  have made : Row.ofValues ⟨[⟨.int, none⟩]⟩ [.int n] = .ok (smallRow n none) := rfl
  exact .withId (.ofValues made) id

theorem setUp_small : ∃ store, Store.setUp [smallPlan] ⟨9, 1⟩ (.ofDisk default) = .ok ([smallFile], ⟨0⟩) store ∧
    store.disk.read smallFile.place = .ok .empty := ⟨_, rfl, rfl⟩

end RowStore
