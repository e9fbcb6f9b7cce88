import OrmBenchmark.Lib.Separated
import OrmBenchmark.Ref.Executor

/-!
# The CSV text is a separated table

`generateCSV` picks each separator by comparing an index with the last one.
For rows that are not empty that is a comma between the cells and a line break
after the last, so the text is the header and one row for each key, in the
order the map is iterated in, written as a separated table.
-/

namespace OrmBenchmark.Ref

open OrmBenchmark.Lib

/-- The loop from its `k`-th cell on, the last index being `n - 1`. -/
theorem foldl_cells (n : Nat) : ∀ (cells : List String) (k : Nat) (sb : String),
    cells ≠ [] → k + cells.length = n →
    (cells.zipIdx k).foldl
        (fun sb p => sb ++ p.1 ++ (if p.2 = n - 1 then "\n" else ",")) sb =
      sb ++ separatedLine ',' '\n' cells := by
  intro cells
  induction cells with
  | nil =>
      intro k sb hne _
      exact absurd rfl hne
  | cons cell rest ih =>
      intro k sb _ hlen
      rw [List.length_cons] at hlen
      rw [List.zipIdx_cons, List.foldl_cons]
      cases rest with
      | nil =>
          rw [List.length_nil] at hlen
          rw [if_pos (show k = n - 1 by omega), List.zipIdx_nil, List.foldl_nil,
            separatedLine, String.intercalate_singleton, String.append_assoc]
          rfl
      | cons cell' rest =>
          rw [List.length_cons] at hlen
          rw [if_neg (show ¬ k = n - 1 by omega),
            ih (k + 1) _ (List.cons_ne_nil _ _) (by rw [List.length_cons]; omega)]
          rw [separatedLine, separatedLine, String.intercalate_cons_cons]
          simp only [String.append_assoc]
          rfl

theorem appendCells_eq {sb : String} {cells : List String} (hne : cells ≠ []) :
    appendCells sb cells = sb ++ separatedLine ',' '\n' cells :=
  foldl_cells cells.length cells 0 sb hne (Nat.zero_add _)

/-- One row of the table: the name and the two averages, in milliseconds. -/
def csvRow (r : String × TimeMeasure × TimeMeasure) : List String :=
  [r.1, toString r.2.1.msec, toString r.2.2.msec]

/-- The header, then a row for each benchmark. -/
def csvTable (rows : List (String × TimeMeasure × TimeMeasure)) : List (List String) :=
  CSV_HEADER :: rows.map csvRow

theorem appendRow_eq {results : ResultMap} {sb : String}
    {r : String × TimeMeasure × TimeMeasure}
    (hlookup : results.lookup r.1 = some [r.2.1, r.2.2]) :
    appendRow results sb r.1 = sb ++ separatedLine ',' '\n' (csvRow r) := by
  rw [appendRow, hlookup]
  simp only []
  rw [appendCells_eq (by simp), separatedLine, separatedLine, csvRow,
    String.intercalate_cons_cons, List.map_cons, List.map_cons, List.map_nil]
  simp only [String.append_assoc]
  rfl

theorem foldl_rows {results : ResultMap}
    {rows : List (String × TimeMeasure × TimeMeasure)}
    (hlookup : ∀ r ∈ rows, results.lookup r.1 = some [r.2.1, r.2.2]) (sb : String) :
    (rows.map Prod.fst).foldl (appendRow results) sb =
      sb ++ separatedText ',' '\n' (rows.map csvRow) := by
  induction rows generalizing sb with
  | nil =>
      rw [List.map_nil, List.map_nil, List.foldl_nil, separatedText_nil,
        String.append_empty]
  | cons r rest ih =>
      rw [List.map_cons, List.foldl_cons, appendRow_eq (hlookup r List.mem_cons_self),
        ih (fun x hx => hlookup x (List.mem_cons_of_mem _ hx)), List.map_cons,
        separatedText_cons, String.append_assoc]

/-- The generated text, when every key maps to its two averages. -/
theorem generateCSV_eq {results : ResultMap}
    {rows : List (String × TimeMeasure × TimeMeasure)}
    (hlookup : ∀ r ∈ rows, results.lookup r.1 = some [r.2.1, r.2.2]) :
    generateCSV results (rows.map Prod.fst) =
      separatedText ',' '\n' (csvTable rows) := by
  rw [generateCSV, foldl_rows hlookup, appendCells_eq (by simp [CSV_HEADER]),
    csvTable, separatedText_cons, String.empty_append]

/-- The rows behind a list of keys that all map to two averages. -/
theorem exists_rows {results : ResultMap} {keys : List String}
    (hpairs : ∀ key ∈ keys, ∃ save load : TimeMeasure,
      results.lookup key = some [save, load]) :
    ∃ rows : List (String × TimeMeasure × TimeMeasure), rows.map Prod.fst = keys ∧
      ∀ r ∈ rows, results.lookup r.1 = some [r.2.1, r.2.2] := by
  induction keys with
  | nil => exact ⟨[], rfl, fun r hr => absurd hr List.not_mem_nil⟩
  | cons key rest ih =>
      obtain ⟨save, load, hkey⟩ := hpairs key List.mem_cons_self
      obtain ⟨rows, hrows, hlookup⟩ :=
        ih fun k hk => hpairs k (List.mem_cons_of_mem _ hk)
      refine ⟨(key, save, load) :: rows, by rw [List.map_cons, hrows], ?_⟩
      exact List.forall_mem_cons.2 ⟨hkey, hlookup⟩

end OrmBenchmark.Ref
