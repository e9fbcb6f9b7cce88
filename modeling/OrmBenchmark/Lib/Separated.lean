import Mathlib.Init

/-!
# Tables of cells as separated text

Rows of cells written with one character between the cells of a row and
another after every row, and the reader that splits them apart again. Reading
inverts writing as soon as no cell holds either character and no row is
empty: an empty row would read back as a row with one empty cell.
-/

namespace OrmBenchmark.Lib

/-- One row: the cells with `sep` between them, then `stop`. -/
def separatedLine (sep stop : Char) (cells : List String) : String :=
  (String.singleton sep).intercalate cells ++ String.singleton stop

/-- The rows, one after the other. -/
def separatedText (sep stop : Char) (rows : List (List String)) : String :=
  String.join (rows.map (separatedLine sep stop))

@[simp]
theorem separatedText_nil {sep stop : Char} : separatedText sep stop [] = "" := rfl

@[simp]
theorem separatedText_cons {sep stop : Char} {row : List String}
    {rows : List (List String)} :
    separatedText sep stop (row :: rows) =
      separatedLine sep stop row ++ separatedText sep stop rows := by
  rw [separatedText, List.map_cons, String.join_cons]
  rfl

/-- The pieces of a text between the occurrences of a character. -/
def pieces (c : Char) (text : String) : List String :=
  (text.split c).toList.map (·.copy)

/-- The rows a text holds: what stands before each `stop`, split at `sep`. -/
def separatedCells (sep stop : Char) (text : String) : List (List String) :=
  (pieces stop text).dropLast.map (pieces sep)

theorem pieces_intercalate {c : Char} {l : List String}
    (hl : ∀ s ∈ l, c ∉ s.toList) (hne : l ≠ []) :
    pieces c ((String.singleton c).intercalate l) = l := by
  rw [pieces, String.toList_split_intercalate hl, if_neg hne]

/-- Ending every line is the same as separating the lines and one empty one. -/
theorem join_lines (stop : Char) (lines : List String) :
    String.join (lines.map (· ++ String.singleton stop)) =
      (String.singleton stop).intercalate (lines ++ [""]) := by
  induction lines with
  | nil => rfl
  | cons line rest ih =>
      rw [List.map_cons, String.join_cons, ih, List.cons_append,
        String.intercalate_cons_of_ne_nil (by simp)]

theorem not_mem_intercalate {c sep : Char} (hc : c ≠ sep) {cells : List String}
    (hcells : ∀ cell ∈ cells, c ∉ cell.toList) :
    c ∉ ((String.singleton sep).intercalate cells).toList := by
  induction cells with
  | nil => simp
  | cons cell rest ih =>
      have hcell := hcells cell List.mem_cons_self
      cases rest with
      | nil => simpa using hcell
      | cons cell' rest =>
          have hrest := ih fun x hx => hcells x (List.mem_cons_of_mem _ hx)
          rw [String.intercalate_cons_cons, String.toList_append,
            String.toList_append, String.toList_singleton, List.mem_append,
            List.mem_append, List.mem_singleton, not_or, not_or]
          exact ⟨⟨hcell, hc⟩, hrest⟩

/-- Reading inverts writing. -/
theorem separatedCells_separatedText {sep stop : Char} (hne : stop ≠ sep)
    {rows : List (List String)} (hrows : ∀ row ∈ rows, row ≠ [])
    (hsep : ∀ row ∈ rows, ∀ cell ∈ row, sep ∉ cell.toList)
    (hstop : ∀ row ∈ rows, ∀ cell ∈ row, stop ∉ cell.toList) :
    separatedCells sep stop (separatedText sep stop rows) = rows := by
  have htext : separatedText sep stop rows = (String.singleton stop).intercalate
      (rows.map ((String.singleton sep).intercalate) ++ [""]) := by
    rw [← join_lines, separatedText, List.map_map]
    rfl
  have hlines : ∀ line ∈ rows.map ((String.singleton sep).intercalate) ++ [""],
      stop ∉ line.toList := by
    intro line hline
    rcases List.mem_append.1 hline with hline | hline
    · obtain ⟨row, hrow, rfl⟩ := List.mem_map.1 hline
      exact not_mem_intercalate hne (hstop row hrow)
    · rw [List.mem_singleton.1 hline]
      simp
  rw [separatedCells, htext, pieces_intercalate hlines (by simp),
    List.dropLast_concat, List.map_map]
  conv => rhs; rw [← List.map_id rows]
  refine List.map_congr_left fun row hrow => ?_
  exact pieces_intercalate (hsep row hrow) (hrows row hrow)

end OrmBenchmark.Lib
