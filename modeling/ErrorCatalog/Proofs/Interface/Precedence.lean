import ErrorCatalog.Proofs.Interface.Fallback

/-!
# Proofs/Interface/Precedence — which table has the type of a field

A style looks a type up in one table, into which others are taken in one after the other.  The last
table that has the type counts (`Table.get?_flatten`), the style's own table comes below them all
and the fallback last, and nothing else about the style changes (`Style.foldl_withTypes`).  So a
module with a table taken in differs from the one by default in the types that it puts in their
places, and in what is warned of (`Style.value_render_withTypes`, `Style.events_render_withTypes`).
-/

namespace ErrorCatalog

namespace Table

/-- **The later of two tables comes first.** -/
theorem get?_extend (t extra : Table) (key : Text) :
    (t.extend extra).get? key = (extra.get? key).or (t.get? key) := by
  rw [get?, extend, List.reverse_append, List.lookup_append]
  rfl

theorem get?_singleton (key text : Text) : Table.get? [(key, text)] key = some text := by
  rw [get?, List.reverse_singleton, List.lookup_cons, beq_self_eq_true]

/-- Of tables in a row the last one counts that has something under the key. -/
theorem get?_flatten (tables : List Table) (key : Text) :
    Table.get? tables.flatten key = tables.reverse.findSome? (·.get? key) := by
  induction tables with
  | nil => rfl
  | cons t tables ih =>
    rw [List.flatten_cons, List.reverse_cons, List.findSome?_append, ← ih, List.findSome?_singleton]
    exact t.get?_extend tables.flatten key

end Table

namespace Style

/-- Tables taken in one after the other are one table, and nothing else changes. -/
theorem foldl_withTypes (g : Style) (extras : List Table) :
    extras.foldl withTypes g = { g with types := g.types ++ extras.flatten } := by
  induction extras generalizing g with
  | nil => rw [List.foldl_nil, List.flatten_nil, List.append_nil]
  | cons extra extras ih =>
    rw [List.foldl_cons, ih, List.flatten_cons, ← List.append_assoc]
    rfl

/-- The text that is mapped to by a table, else by default. -/
def mappedBy (table : Table) (type : Text) : Option Text :=
  (table.get? type).or (({} : Style).types.get? type)

section WithTypes

variable (fallback : Setting Text) (table : Table) (c : Catalog)

theorem get?_withTypes (type : Text) :
    (({ fallback } : Style).withTypes table).types.get? type = mappedBy table type :=
  ({} : Style).types.get?_extend table type

/-- **A module with a table taken in**: its types are those of the table, else those by default. -/
theorem value_render_withTypes : ((({ fallback } : Style).withTypes table).render c).value =
    ({} : Style).moduleWith (fun type => (mappedBy table type).getD fallback.text) c := by
  have htypes : (({ fallback } : Style).withTypes table).typeText =
      fun type => (mappedBy table type).getD fallback.text := funext fun type => by
    rw [typeText, value_mapType, get?_withTypes]
    rfl
  rw [value_render_eq_moduleWith, htypes]
  rfl

theorem events_render_withTypes : ((({ fallback } : Style).withTypes table).render c).events =
    ((c.flatMap fun e => e.record.fields).filter fun f => mappedBy table f.type = none).map
        (fun f => .noMapping f.type fallback) ++
      (c.filter fun e => ({} : Style).codeParam ∉ e.tag.params.map Param.name).map
        fun e => .noCode e.record.name ({} : Style).codeParam ({} : Style).enumName := by
  simp only [events_render_eq, ← Table.get?_eq_none_iff, get?_withTypes]
  rfl

end WithTypes

end Style

end ErrorCatalog
