import Mathlib.Data.List.Perm.Basic
import RowStore.Catalog

/-!
# Tables and their names

The catalog finds tables by their numbers, and numbers by names. Whatever is registered and forgotten, a name leads to
the table of that name and to no other, and a table is known by one name. A table that is registered takes the place of
the one with its number and of the one with its name, which may be two, and touches no other.
-/

namespace RowStore

inductive CatalogCall where
  | register (file : TableFile) (name primaryKey : String)
  | clear

namespace Catalog

/-! ## The names of a catalog -/

def change (catalog : Catalog) : CatalogCall → Catalog
  | .register file name primaryKey => catalog.register file name primaryKey
  | .clear => .empty

def changed (catalog : Catalog) (calls : List CatalogCall) : Catalog := calls.foldl change catalog

/-- A name stands for a number just where the table with that number has that name, and the number is that of its
file. -/
structure Linked (catalog : Catalog) : Prop where
  named : ∀ {name id}, catalog.names.get? name = some id ↔
    ∃ table, catalog.tables.get? id = some table ∧ table.name = name
  keyed : ∀ {id table}, catalog.tables.get? id = some table → table.file.id = id

variable {catalog : Catalog} {id other : TableId} {name : String} {table : Table}

theorem linked_empty : Catalog.empty.Linked := ⟨⟨nofun, fun ⟨_, here, _⟩ => nomatch here⟩, nofun⟩

/-! ## Forgetting a table -/

theorem tables_forgetId (catalog : Catalog) (id : TableId) :
    (catalog.forgetId id).tables.get? other = some table ↔ other ≠ id ∧ catalog.tables.get? other = some table := by
  unfold forgetId
  split
  · rw [Assoc.get?_erase]
    by_cases same : other = id <;> simp [same]
  · next absent =>
    refine ⟨fun here => ⟨?_, here⟩, And.right⟩
    rintro rfl
    cases absent.symm.trans here

theorem names_forgetName (catalog : Catalog) (name : String) {other : String} :
    (catalog.forgetName name).names.get? other = some id ↔ other ≠ name ∧ catalog.names.get? other = some id := by
  unfold forgetName
  split
  · rw [Assoc.get?_erase]
    by_cases same : other = name <;> simp [same]
  · next absent =>
    refine ⟨fun here => ⟨?_, here⟩, And.right⟩
    rintro rfl
    cases absent.symm.trans here

namespace Linked

theorem names_forgetId (h : catalog.Linked) (id : TableId) :
    (catalog.forgetId id).names.get? name = some other ↔ other ≠ id ∧ catalog.names.get? name = some other := by
  unfold forgetId
  split
  · next old table_eq =>
    rw [Assoc.get?_erase]
    split
    · next same =>
      -- The name that is forgotten is that of the table.
      have named := h.named.mpr ⟨old, table_eq, same.symm⟩
      simp [named, eq_comm]
    · next differs =>
      refine ⟨fun here => ⟨?_, here⟩, And.right⟩
      rintro rfl
      obtain ⟨table, table_eq', name_eq⟩ := h.named.mp here
      cases table_eq.symm.trans table_eq'
      exact differs name_eq.symm
  · next absent =>
    refine ⟨fun here => ⟨?_, here⟩, And.right⟩
    rintro rfl
    obtain ⟨table, table_eq, -⟩ := h.named.mp here
    cases absent.symm.trans table_eq

theorem tables_forgetName (h : catalog.Linked) (name : String) :
    (catalog.forgetName name).tables.get? id = some table ↔
      table.name ≠ name ∧ catalog.tables.get? id = some table := by
  have unnamed : catalog.names.get? name ≠ some id → catalog.tables.get? id = some table → table.name ≠ name := by
    rintro differs here rfl
    exact differs (h.named.mpr ⟨table, here, rfl⟩)
  unfold forgetName
  split
  · next old name_eq =>
    rw [Assoc.get?_erase]
    split
    · next same =>
      obtain ⟨table', here, name_eq'⟩ := h.named.mp name_eq
      simp only [same, here, reduceCtorEq, Option.some.injEq, false_iff, not_and]
      rintro differs rfl
      exact differs name_eq'
    · next differs =>
      have differs' : catalog.names.get? name ≠ some id := by
        rw [name_eq]
        exact fun same => differs (Option.some.inj same).symm
      exact ⟨fun here => ⟨unnamed differs' here, here⟩, And.right⟩
  · next absent =>
    have differs' : catalog.names.get? name ≠ some id := by simp [absent]
    exact ⟨fun here => ⟨unnamed differs' here, here⟩, And.right⟩

theorem forgetId (h : catalog.Linked) (id : TableId) : (catalog.forgetId id).Linked where
  named := by
    intro name other
    simp only [h.names_forgetId, tables_forgetId, h.named, and_assoc, exists_and_left]
  keyed := fun here => h.keyed ((tables_forgetId ..).mp here).2

/-! ## Registering a table -/

variable (h : catalog.Linked) (file : TableFile) (newName primaryKey : String)

include h

theorem tables_register :
    (catalog.register file newName primaryKey).tables.get? id = some table ↔
      id = file.id ∧ table = ⟨file, newName, primaryKey⟩ ∨
        id ≠ file.id ∧ table.name ≠ newName ∧ catalog.tables.get? id = some table := by
  unfold Catalog.register enter
  rw [Assoc.get?_insert]
  split
  · next same => simp [same, eq_comm]
  · next differs =>
    rw [(h.forgetId file.id).tables_forgetName, tables_forgetId]
    simp [differs]

theorem names_register :
    (catalog.register file newName primaryKey).names.get? name = some id ↔
      name = newName ∧ id = file.id ∨
        name ≠ newName ∧ id ≠ file.id ∧ catalog.names.get? name = some id := by
  unfold Catalog.register enter
  rw [Assoc.get?_insert]
  split
  · next same => simp [same, eq_comm]
  · next differs =>
    rw [names_forgetName, h.names_forgetId]
    simp [differs]

theorem register : (catalog.register file newName primaryKey).Linked where
  named := by
    intro name id
    rw [h.names_register, h.named]
    constructor
    · rintro (⟨rfl, rfl⟩ | ⟨other_name, other_id, table, here, rfl⟩)
      · exact ⟨_, (h.tables_register ..).mpr (.inl ⟨rfl, rfl⟩), rfl⟩
      · exact ⟨table, (h.tables_register ..).mpr (.inr ⟨other_id, other_name, here⟩), rfl⟩
    · rintro ⟨table, here, rfl⟩
      rcases (h.tables_register ..).mp here with ⟨rfl, rfl⟩ | ⟨other_id, other_name, here⟩
      · exact .inl ⟨rfl, rfl⟩
      · exact .inr ⟨other_name, other_id, table, here, rfl⟩
  keyed := by
    intro id table here
    rcases (h.tables_register ..).mp here with ⟨rfl, rfl⟩ | ⟨-, -, here⟩
    · rfl
    · exact h.keyed here

end Linked

/-! ## Any number of calls -/

theorem Linked.change (h : catalog.Linked) (call : CatalogCall) : (catalog.change call).Linked := by
  cases call with
  | register file name primaryKey => exact h.register file name primaryKey
  | clear => exact linked_empty

theorem Linked.changed (h : catalog.Linked) (calls : List CatalogCall) : (catalog.changed calls).Linked := by
  induction calls generalizing catalog with
  | nil => exact h
  | cons call calls ih => exact ih (h.change call)

/-! ## Looking up -/

theorem table_eq_ok_iff : catalog.table id = .ok table ↔ catalog.tables.get? id = some table := by
  unfold Catalog.table
  cases catalog.tables.get? id <;> simp

theorem table_eq_error_iff :
    catalog.table id = .error (.tableNotFound id) ↔ ∀ table, catalog.tables.get? id ≠ some table := by
  unfold Catalog.table
  cases catalog.tables.get? id <;> simp

theorem tableId_eq_ok_iff : catalog.tableId name = .ok id ↔ catalog.names.get? name = some id := by
  unfold tableId
  cases catalog.names.get? name <;> simp

theorem tableId_eq_error_iff :
    catalog.tableId name = .error (.tableNameNotFound name) ↔ ∀ id, catalog.names.get? name ≠ some id := by
  unfold tableId
  cases catalog.names.get? name <;> simp

theorem map_table_eq_ok_iff {α : Type} {ask : Table → α} {a : α} :
    (catalog.table id).map ask = .ok a ↔ ∃ table, catalog.tables.get? id = some table ∧ ask table = a := by
  unfold Catalog.table
  cases catalog.tables.get? id <;> simp [Except.map]

theorem Linked.names_perm (h : catalog.Linked) :
    (catalog.tables.entries.map fun entry => entry.2.name).Perm catalog.names.keys := by
  have nodup : (catalog.tables.entries.map fun entry => entry.2.name).Nodup := by
    refine List.pairwise_map.mpr ((List.pairwise_map.mp catalog.tables.nodup).imp_of_mem ?_)
    rintro ⟨id, table⟩ ⟨id', table'⟩ mem mem' differs same
    -- A name stands for one number.
    have named := h.named.mpr ⟨table, (catalog.tables.get?_eq_some_iff id table).mpr mem, same⟩
    have named' := h.named.mpr ⟨table', (catalog.tables.get?_eq_some_iff id' table').mpr mem', rfl⟩
    exact differs (Option.some.inj (named.symm.trans named'))
  refine (List.perm_ext_iff_of_nodup nodup catalog.names.nodup).mpr ?_
  intro name
  change _ ↔ name ∈ catalog.names.keys
  rw [List.mem_map, Assoc.mem_keys_iff, Assoc.contains, Option.isSome_iff_exists]
  constructor
  · rintro ⟨⟨id, table⟩, mem, rfl⟩
    exact ⟨id, h.named.mpr ⟨table, (catalog.tables.get?_eq_some_iff id table).mpr mem, rfl⟩⟩
  · rintro ⟨id, here⟩
    obtain ⟨table, table_eq, name_eq⟩ := h.named.mp here
    exact ⟨(id, table), (catalog.tables.get?_eq_some_iff id table).mp table_eq, name_eq⟩

theorem Linked.size_eq (h : catalog.Linked) : catalog.size = catalog.names.size := by
  rw [Assoc.size_eq_length_keys, ← h.names_perm.length_eq, List.length_map]
  rfl

/-! ## What registering changes -/

/-- A catalog before and after a table was registered: the table is there, and every other table is where it was, unless
it had the number or the name of the new one. Then it is gone, and so is what led to it. -/
structure Replaces (before after : Catalog) (new : Table) : Prop where
  entered : after.table new.file.id = .ok new ∧ after.tableId new.name = .ok new.file.id
  kept : ∀ id old, before.table id = .ok old → id ≠ new.file.id → old.name ≠ new.name →
    after.table id = .ok old ∧ after.tableId old.name = .ok id
  displaced : ∀ id old, before.table id = .ok old → id = new.file.id ∨ old.name = new.name →
    after.table id = (if id = new.file.id then .ok new else .error (.tableNotFound id)) ∧
      after.tableId old.name =
        if old.name = new.name then .ok new.file.id else .error (.tableNameNotFound old.name)
  only : ∀ id table, after.table id = .ok table →
    id = new.file.id ∧ table = new ∨ id ≠ new.file.id ∧ table.name ≠ new.name ∧ before.table id = .ok table

theorem Linked.replaces (h : catalog.Linked) (file : TableFile) (name primaryKey : String) :
    catalog.Replaces (catalog.register file name primaryKey) ⟨file, name, primaryKey⟩ where
  entered := ⟨table_register_self .., tableId_register_self ..⟩
  kept := by
    intro id old here other_id other_name
    rw [table_eq_ok_iff] at here
    rw [table_eq_ok_iff, tableId_eq_ok_iff, h.tables_register, h.names_register]
    exact ⟨.inr ⟨other_id, other_name, here⟩, .inr ⟨other_name, other_id, h.named.mpr ⟨old, here, rfl⟩⟩⟩
  displaced := by
    intro id old here taken
    rw [table_eq_ok_iff] at here
    have named := h.named.mpr ⟨old, here, rfl⟩
    constructor
    · split
      · next same => exact same ▸ table_register_self ..
      · next other_id =>
        rw [table_eq_error_iff]
        intro table found
        rcases (h.tables_register ..).mp found with ⟨same, -⟩ | ⟨-, other_name, found⟩
        · exact other_id same
        · cases here.symm.trans found
          exact taken.elim other_id other_name
    · split
      · next same => exact same ▸ tableId_register_self ..
      · next other_name =>
        rw [tableId_eq_error_iff]
        intro other found
        rcases (h.names_register ..).mp found with ⟨same, -⟩ | ⟨-, other_id, found⟩
        · exact other_name same
        · cases named.symm.trans found
          exact taken.elim other_id other_name
  only := by
    intro id table here
    simp only [table_eq_ok_iff] at here ⊢
    exact (h.tables_register ..).mp here

/-- However tables were registered and the catalog was cleared, it finds a table under a name just where the table goes
by that name, it finds each under the number of its file, and it counts as many tables as names. Registering one more
replaces those with its number or its name, and no other. -/
theorem changed_linked (calls : List CatalogCall) :
    let catalog := Catalog.empty.changed calls
    (∀ name id, catalog.tableId name = .ok id ↔ catalog.tableName id = .ok name) ∧
      (∀ id file, catalog.file id = .ok file → file.id = id) ∧
      (catalog.names.keys.Nodup ∧ catalog.size = catalog.names.keys.length ∧
        ∀ name, name ∈ catalog.names.keys ↔ ∃ id, catalog.tableId name = .ok id) ∧
      ∀ file name primaryKey,
        catalog.Replaces (catalog.register file name primaryKey) ⟨file, name, primaryKey⟩ := by
  intro catalog
  have linked : catalog.Linked := linked_empty.changed calls
  refine ⟨fun name id => ?_, fun id file found => ?_, ⟨catalog.names.nodup, ?_, fun name => ?_⟩, linked.replaces⟩
  · rw [tableId_eq_ok_iff, tableName, map_table_eq_ok_iff, linked.named]
  · obtain ⟨table, here, rfl⟩ := map_table_eq_ok_iff.mp found
    exact linked.keyed here
  · rw [linked.size_eq, Assoc.size_eq_length_keys]
  · rw [Assoc.mem_keys_iff, Assoc.contains, Option.isSome_iff_exists]
    simp only [tableId_eq_ok_iff]

/-- A table that is registered under the name of another displaces that one and its own former entry at once. -/
example :
    let first : TableFile := ⟨⟨1⟩, ["a"], .empty, 64, 0⟩
    let second : TableFile := ⟨⟨2⟩, ["b"], .empty, 64, 1⟩
    let catalog := Catalog.empty.changed [.register first "a" "", .register second "b" "", .register first "b" "key"]
    catalog.table ⟨1⟩ = .ok ⟨first, "b", "key"⟩ ∧ catalog.table ⟨2⟩ = .error (.tableNotFound ⟨2⟩) ∧
      catalog.tableId "a" = .error (.tableNameNotFound "a") ∧ catalog.size = 1 := by
  decide

end Catalog

end RowStore
