/-!
# The database schema

There is one revision. Upgrading to it makes the tables of the catalog and does
nothing to a database that has them; downgrading from it takes them away again. The
table that holds the revision stays.
-/

set_option autoImplicit false

namespace GalleryCatalog.Migration

structure SchemaColumn where
  name : String
  type : String
  nullable : Bool := false
  deriving DecidableEq, Repr

/-- A name and the columns that it stands for. -/
structure ColumnSet where
  name : String
  columns : List String
  deriving DecidableEq, Repr

/-- Rows that refer to a row of another table are removed with it. -/
structure ForeignKey where
  name : String
  columns : List String
  table : String
  onDelete : String := "CASCADE"
  deriving DecidableEq, Repr

structure TableSchema where
  name : String
  columns : List SchemaColumn
  primaryKey : ColumnSet
  unique : List ColumnSet := []
  indexes : List ColumnSet := []
  foreignKeys : List ForeignKey := []
  deriving DecidableEq, Repr

def integerType : String := "INTEGER"

def textType : String := "VARCHAR"

def versionTable : TableSchema where
  name := "alembic_version"
  columns := [{ name := "version_num", type := "VARCHAR(32)" }]
  primaryKey := ⟨"alembic_version_pkc", ["version_num"]⟩

def archiveTable : TableSchema where
  name := "archive"
  columns := [{ name := "id", type := integerType }, { name := "hash", type := textType },
    { name := "title", type := textType }, { name := "created_at", type := "DATETIME" }]
  primaryKey := ⟨"pk_archive", ["id"]⟩
  unique := [⟨"uq_archive_archive_hash", ["hash"]⟩]

def sourceTable : TableSchema where
  name := "archive_source"
  columns := [{ name := "id", type := integerType }, { name := "archive_id", type := integerType },
    { name := "name", type := textType }, { name := "url", type := textType, nullable := true }]
  primaryKey := ⟨"pk_archive_source", ["id"]⟩
  indexes := [⟨"ix_archive_source_archive_id", ["archive_id"]⟩]
  foreignKeys := [{
    name := "fk_archive_source_archive_source_archive_id_archive"
    columns := ["archive_id"]
    table := "archive" }]

def imageTable : TableSchema where
  name := "archive_image"
  columns := [{ name := "id", type := integerType }, { name := "archive_id", type := integerType },
    { name := "filename", type := textType }, { name := "page_number", type := integerType },
    { name := "width", type := integerType, nullable := true },
    { name := "height", type := integerType, nullable := true }]
  primaryKey := ⟨"pk_archive_image", ["id"]⟩
  unique := [⟨"uq_archive_image_archive_image_archive_id", ["archive_id", "page_number"]⟩]
  foreignKeys := [{
    name := "fk_archive_image_archive_image_archive_id_archive"
    columns := ["archive_id"]
    table := "archive" }]

def tagTable : TableSchema where
  name := "tag"
  columns := [{ name := "id", type := integerType }, { name := "namespace", type := textType },
    { name := "name", type := textType }]
  primaryKey := ⟨"pk_tag", ["id"]⟩
  unique := [⟨"uq_tag_tag_namespace", ["namespace", "name"]⟩]

def linkTable : TableSchema where
  name := "archive_tag"
  columns := [{ name := "archive_id", type := integerType },
    { name := "tag_id", type := integerType }]
  primaryKey := ⟨"pk_archive_tag", ["archive_id", "tag_id"]⟩
  indexes := [⟨"ix_archive_tag_tag_id", ["tag_id"]⟩]
  foreignKeys := [
    { name := "fk_archive_tag_archive_tag_archive_id_archive"
      columns := ["archive_id"]
      table := "archive" },
    { name := "fk_archive_tag_archive_tag_tag_id_tag"
      columns := ["tag_id"]
      table := "tag" }]

/-- A database by its tables and whether it is at the revision. -/
structure Schema where
  current : Bool := false
  tables : List TableSchema := []
  deriving DecidableEq, Repr

def catalogTables : List TableSchema :=
  [archiveTable, sourceTable, imageTable, tagTable, linkTable]

def Schema.withVersions (s : Schema) : Schema :=
  if s.tables.contains versionTable then s
  else { s with tables := versionTable :: s.tables }

def Schema.upgrade (s : Schema) : Schema :=
  let s := s.withVersions
  if s.current then s else { current := true, tables := s.tables ++ catalogTables }

def Schema.downgrade (s : Schema) : Schema :=
  let s := s.withVersions
  if s.current then
    { current := false, tables := s.tables.filter fun t => !catalogTables.contains t }
  else s

end GalleryCatalog.Migration
