import RowStore.TableFile

/-!
# The catalog

The tables that are known, by number and by name. A table takes the number of its file, and registering it displaces the
tables that had its number or its name before.
-/

namespace RowStore

/-- A registered table. The primary key may be empty. -/
structure Table where
  file : TableFile
  name : String
  primaryKey : String
  deriving DecidableEq

/-- The registered tables by number, and the number of each name. -/
structure Catalog where
  tables : Assoc TableId Table
  names : Assoc String TableId

namespace Catalog

def empty : Catalog := ⟨.empty, .empty⟩

instance : Inhabited Catalog := ⟨empty⟩

/-! ## Registering -/

/-- Forgets the table with a number, and its name. -/
def forgetId (catalog : Catalog) (id : TableId) : Catalog :=
  match catalog.tables.get? id with
  | some old => ⟨catalog.tables.erase id, catalog.names.erase old.name⟩
  | none => catalog

/-- Forgets the table with a name, and its number. -/
def forgetName (catalog : Catalog) (name : String) : Catalog :=
  match catalog.names.get? name with
  | some id => ⟨catalog.tables.erase id, catalog.names.erase name⟩
  | none => catalog

/-- Adds a table whose number and name are not taken. -/
def enter (catalog : Catalog) (table : Table) : Catalog :=
  ⟨catalog.tables.insert table.file.id table, catalog.names.insert table.name table.file.id⟩

/-- Registers a table in place of those with its number or its name. -/
def register (catalog : Catalog) (file : TableFile) (name primaryKey : String) : Catalog :=
  ((catalog.forgetId file.id).forgetName name).enter ⟨file, name, primaryKey⟩

/-! ## Looking up -/

def table (catalog : Catalog) (id : TableId) : Except StoreError Table :=
  match catalog.tables.get? id with
  | some table => .ok table
  | none => .error (.tableNotFound id)

def tableId (catalog : Catalog) (name : String) : Except StoreError TableId :=
  match catalog.names.get? name with
  | some id => .ok id
  | none => .error (.tableNameNotFound name)

def tableName (catalog : Catalog) (id : TableId) : Except StoreError String :=
  (catalog.table id).map Table.name

def schema (catalog : Catalog) (id : TableId) : Except StoreError Schema :=
  (catalog.table id).map fun table => table.file.schema

def file (catalog : Catalog) (id : TableId) : Except StoreError TableFile :=
  (catalog.table id).map Table.file

def primaryKey (catalog : Catalog) (id : TableId) : Except StoreError String :=
  (catalog.table id).map Table.primaryKey

def ids (catalog : Catalog) : List TableId := catalog.tables.keys

def size (catalog : Catalog) : Nat := catalog.tables.size

def isEmpty (catalog : Catalog) : Bool := catalog.size == 0

/-! ## What registering does -/

theorem table_register_self (catalog : Catalog) (file : TableFile) (name primaryKey : String) :
    (catalog.register file name primaryKey).table file.id = .ok ⟨file, name, primaryKey⟩ := by
  simp [register, enter, table]

theorem tableId_register_self (catalog : Catalog) (file : TableFile) (name primaryKey : String) :
    (catalog.register file name primaryKey).tableId name = .ok file.id := by
  simp [register, enter, tableId]

end Catalog

end RowStore
