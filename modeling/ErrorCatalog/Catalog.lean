import ErrorCatalog.Text.Basic

/-!
# Catalog — declared error types

A catalogue lists error types in the order of their declarations.  Each entry is a record, which
gives the error's fields, under an attribute, whose parameters carry its code and its message.

Parameters are looked up in a table, where an entry hides the earlier ones of the same key; joining
two tables so lets the second take precedence.
-/

namespace ErrorCatalog

/-! ## Tables -/

/-- Texts under keys, in the order they were entered. -/
abbrev Table := List (Text × Text)

namespace Table

/-- The last text entered under `key`. -/
def get? (t : Table) (key : Text) : Option Text := t.reverse.lookup key

/-- The table with the entries of `extra` made after its own. -/
def extend (t extra : Table) : Table := t ++ extra

end Table

/-! ## Catalogues -/

/-- A named value inside an attribute. -/
structure Param where
  name : Text
  value : Text
  deriving DecidableEq, Repr

/-- What stands before a record: a name and parameters. -/
structure Attribute where
  name : Text
  params : List Param
  deriving DecidableEq, Repr

/-- A field of a record, with its documentation or the empty text. -/
structure Field where
  name : Text
  type : Text
  doc : Text
  deriving DecidableEq, Repr

/-- A record and its fields in order. -/
structure Record where
  name : Text
  fields : List Field
  deriving DecidableEq, Repr

/-- A record under its attribute. -/
structure Entry where
  tag : Attribute
  record : Record
  deriving DecidableEq, Repr

/-- Error types in the order of their declarations. -/
abbrev Catalog := List Entry

/-- The parameters by name. -/
def Attribute.table (a : Attribute) : Table := a.params.map fun p => (p.name, p.value)

/-- The value of the last parameter of that name. -/
def Attribute.value? (a : Attribute) (name : Text) : Option Text := a.table.get? name

/-- The names of the records. -/
def Catalog.names (c : Catalog) : List Text := c.map fun e => e.record.name

end ErrorCatalog
