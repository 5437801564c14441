import Std.Data.ExtTreeMap

/-!
Finite tables with integer keys. Two tables are equal when they store the same values under the
same keys, in whatever order those were stored; the entries of a table are listed in increasing
order of key.
-/

namespace ViewSync

abbrev Table (α : Type) := Std.ExtTreeMap Int α

namespace Table

variable {α : Type}

/-- Removes every key up to and including `limit`. -/
def dropThrough (table : Table α) (limit : Int) : Table α :=
  table.filter fun key _ => limit < key

/-! ### Looking up what was stored -/

theorem getElem?_insert (table : Table α) (key other : Int) (value : α) :
    (table.insert key value)[other]? = if other = key then some value else table[other]? := by
  rw [Std.ExtTreeMap.getElem?_insert]
  simp only [Std.LawfulEqCmp.compare_eq_iff_eq, eq_comm (a := other)]

theorem getElem?_dropThrough (table : Table α) (limit key : Int) :
    (table.dropThrough limit)[key]? = if limit < key then table[key]? else none := by
  rw [dropThrough, Std.ExtTreeMap.getElem?_filter]
  simp only [Std.ExtTreeMap.getKey_eq]
  cases table[key]? <;> simp [Option.filter]

theorem mem_toList {table : Table α} {key : Int} {value : α} :
    (key, value) ∈ table.toList ↔ table[key]? = some value :=
  Std.ExtTreeMap.mem_toList_iff_getElem?_eq_some

/-- No key is listed twice, and a smaller key comes first. -/
theorem toList_increasing (table : Table α) :
    table.toList.Pairwise fun left right => left.1 < right.1 :=
  Std.ExtTreeMap.ordered_keys_toList.imp fun less => Int.compare_eq_lt.1 less

end Table

end ViewSync
