import EntityStore.Schema.Entity

/-!
# Asking the catalog

The two queries that read a table as it is: its columns, and its indexes but for that of the
primary key, each index with its columns in key order. The table is named by string constants, so
a table of any name can be asked for. A table without a schema of its own is looked for in the
current one.
-/

set_option autoImplicit false

namespace EntityStore.Catalog

def columnsQuery (e : Entity) : String :=
  let (schema, table) := e.tableParts
  let schema := match schema with
    | some schema => Sql.quoteText schema
    | none => "current_schema()"
  "SELECT column_name::text AS \"Field\", udt_name::text AS \"Type\", "
    ++ "is_nullable::text AS \"Null\", column_default::text AS \"Default\", "
    ++ "character_maximum_length::int AS \"Length\", numeric_precision::int AS \"Precision\", "
    ++ "numeric_scale::int AS \"Scale\" "
    ++ "FROM information_schema.columns "
    ++ "WHERE table_name = " ++ Sql.quoteText table ++ " AND table_schema = " ++ schema
    ++ " ORDER BY ordinal_position"

def indexesQuery (e : Entity) : String :=
  "SELECT c.relname::text AS \"Name\", b.indisunique AS \"Unique\", "
    ++ "EXISTS(SELECT 1 FROM pg_constraint k WHERE k.conindid = b.indexrelid) AS \"Constraint\", "
    ++ "ARRAY_TO_STRING(ARRAY_AGG(d.attname ORDER BY b.columnpos_order), ',') AS \"Columns\" "
    ++ "FROM (SELECT indrelid, indexrelid, indisunique, "
    ++ "indkey[columnpos_order] AS columnpos, columnpos_order "
    ++ "FROM (SELECT indrelid, indexrelid, indisunique, indkey, "
    ++ "GENERATE_SUBSCRIPTS(indkey, 1) AS columnpos_order "
    ++ "FROM pg_index WHERE indrelid = " ++ Sql.quoteText e.quotedTable
    ++ "::regclass AND indisprimary = false) a) b "
    ++ "INNER JOIN pg_class c ON b.indexrelid = c.oid "
    ++ "INNER JOIN pg_attribute d ON b.indrelid = d.attrelid AND b.columnpos = d.attnum "
    ++ "GROUP BY \"Name\", \"Unique\", \"Constraint\" "
    ++ "ORDER BY \"Name\""

end EntityStore.Catalog
