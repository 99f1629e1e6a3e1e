import GalleryCatalog.Database.Url

/-!
# Drivers

The kind of a database is a dialect, perhaps with a driver behind a plus sign. Many
drivers are known by name, but only the one for database files is there.
-/

set_option autoImplicit false

namespace GalleryCatalog.Driver

/-- The module that a driver needs, or none where the driver is there. -/
abbrev Need := Option String

def fileDrivers : List (String × Need) := [
  ("base", none), ("pysqlite", none), ("aiosqlite", some "aiosqlite"),
  ("pysqlcipher", some "pysqlcipher3")]

def mysqlDrivers : List (String × Need) := [
  ("base", some "MySQLdb"), ("mysqldb", some "MySQLdb"), ("pymysql", some "pymysql"),
  ("mysqlconnector", some "mysql"), ("mariadbconnector", some "mariadb"),
  ("asyncmy", some "asyncmy"), ("aiomysql", some "aiomysql"), ("cymysql", some "cymysql"),
  ("pyodbc", some "pyodbc")]

def postgresDrivers : List (String × Need) := [
  ("base", some "psycopg2"), ("psycopg2", some "psycopg2"), ("psycopg", some "psycopg"),
  ("psycopg_async", some "psycopg"), ("asyncpg", some "asyncpg"), ("pg8000", some "pg8000"),
  ("psycopg2cffi", some "psycopg2cffi")]

def oracleDrivers : List (String × Need) := [
  ("base", some "cx_Oracle"), ("cx_oracle", some "cx_Oracle"), ("oracledb", some "oracledb"),
  ("oracledb_async", some "oracledb")]

def mssqlDrivers : List (String × Need) := [
  ("base", some "pyodbc"), ("pyodbc", some "pyodbc"), ("pymssql", some "pymssql"),
  ("aioodbc", some "aioodbc")]

def dialects : List (String × List (String × Need)) := [
  ("sqlite", fileDrivers), ("mysql", mysqlDrivers), ("mariadb", mysqlDrivers),
  ("postgresql", postgresDrivers), ("oracle", oracleDrivers), ("mssql", mssqlDrivers)]

/-- The dialect and the driver of a kind. A kind without a plus sign has the base
driver of its dialect. -/
def partsOf (kind : String) : Except DatabaseError (String × String) :=
  match (Text.splitAll '+' kind.toList).map String.ofList with
  | [dialect] => .ok (dialect, "base")
  | [dialect, driver] => .ok (dialect, driver)
  | _ => .error .tooManyParts

/-- The kind must be that of database files. -/
def require (kind : String) : Except DatabaseError Unit := do
  let (dialect, driver) ← partsOf kind
  match (dialects.lookup dialect).bind (List.lookup driver) with
  | none => throw (.unknownDialect kind)
  | some (some name) => throw (.missingDriver name)
  | some none => return

end GalleryCatalog.Driver
