import RlInvestments.PricePipeline

/-!
# Rows that abort the scrape

A row without a name is skipped by its handler, and an unreadable price is `None`
by another. The split for the id and the removal of the name cell stand between
the two handlers: a named row that lacks either raises, and the whole run ends.
-/

namespace RlInvestments.IrregularRows

open RlInvestments.ScrapedTables RlInvestments.PricePipeline

set_option autoImplicit false

def isComplete (row : Row) : Bool := row.itemID?.isSome && !row.cells.isEmpty

theorem is_complete_iff (row : Row) :
    isComplete row = true ↔ row.itemID?.isSome = true ∧ row.cells ≠ [] := by
  simp [isComplete]

/-- The rows that lack none of the three parts the loop reads. -/
def isRegular (row : Row) : Bool := hasName row && isComplete row

/-- Only the lookup of the name is guarded: a row without one leaves no trace. -/
theorem parse_table_named (platform : TablePlatform) (getItemData : Bool) (rows : List Row)
    (scraped : Scraped) :
    Azure.parseTable platform getItemData (rows.filter hasName) scraped =
      Azure.parseTable platform getItemData rows scraped := by
  induction rows generalizing scraped with
  | nil => rfl
  | cons row rows induction =>
      cases named : row.name with
      | none =>
          have skipped : ¬ hasName row = true := by simp [hasName, named]
          rw [List.filter_cons_of_neg skipped, induction]
          simp only [Azure.parseTable, named]
      | some itemName =>
          have kept : hasName row = true := by simp [hasName, named]
          rw [List.filter_cons_of_pos kept]
          simp only [Azure.parseTable, named, induction]

/-- The split for the id and the removal of the name cell are not guarded. -/
theorem parse_named_row_raises (platform : TablePlatform) (getItemData : Bool) (row : Row)
    (itemName : String) (irregular : isComplete row = false) (scraped : Scraped) :
    parseNamedRow platform getItemData row itemName scraped = .error .indexError := by
  cases identified : row.itemID? with
  | none => simp only [parseNamedRow, identified]
  | some itemID =>
      cases cells : row.cells with
      | nil => simp only [parseNamedRow, identified, cells]
      | cons nameCell tableData => simp [isComplete, identified, cells] at irregular

theorem parse_table_raises (platform : TablePlatform) (getItemData : Bool) (rows : List Row)
    (irregular : ∃ row ∈ rows, hasName row = true ∧ isComplete row = false)
    (scraped : Scraped) :
    ∃ error, Azure.parseTable platform getItemData rows scraped = .error error := by
  induction rows generalizing scraped with
  | nil =>
      obtain ⟨row, member, -⟩ := irregular
      exact absurd member List.not_mem_nil
  | cons row rows induction =>
      cases named : row.name with
      | none =>
          simp only [Azure.parseTable, named]
          apply induction
          obtain ⟨other, member, hasOther, incomplete⟩ := irregular
          cases member with
          | head => simp [hasName, named] at hasOther
          | tail _ later => exact ⟨other, later, hasOther, incomplete⟩
      | some itemName =>
          simp only [Azure.parseTable, named]
          cases parsed : parseNamedRow platform getItemData row itemName scraped with
          | error error => exact ⟨error, rfl⟩
          | ok middle =>
              apply induction
              obtain ⟨other, member, hasOther, incomplete⟩ := irregular
              cases member with
              | head =>
                  rw [parse_named_row_raises platform getItemData row itemName incomplete] at parsed
                  cases parsed
              | tail _ later => exact ⟨other, later, hasOther, incomplete⟩

/-- The loop ends, with the dictionary and the list that the regular rows alone give. -/
def SkipsIrregularRows (platform : TablePlatform) (getItemData : Bool) (rows : List Row)
    (scraped : Scraped) : Prop :=
  ∃ result, Azure.parseTable platform getItemData rows scraped = .ok result ∧
    Azure.parseTable platform getItemData (rows.filter isRegular) scraped = .ok result

theorem skips_irregular_rows_iff (platform : TablePlatform) (getItemData : Bool)
    (rows : List Row) (scraped : Scraped) :
    SkipsIrregularRows platform getItemData rows scraped ↔
      ∀ row ∈ rows, hasName row = true → isComplete row = true := by
  apply Iff.intro
  · rintro ⟨result, parsed, -⟩ row member named
    apply Bool.of_not_eq_false
    intro incomplete
    obtain ⟨error, raised⟩ :=
      parse_table_raises platform getItemData rows ⟨row, member, named, incomplete⟩ scraped
    rw [raised] at parsed
    cases parsed
  · intro complete
    obtain ⟨result, parsed, -, -⟩ := parse_table_spec platform getItemData rows
      (fun row member named => (is_complete_iff row).mp (complete row member named)) scraped
    have regular : rows.filter isRegular = rows.filter hasName := by
      apply List.filter_congr
      intro row member
      cases named : hasName row with
      | false => rw [isRegular, named, Bool.false_and]
      | true => rw [isRegular, named, complete row member named, Bool.true_and]
    exact ⟨result, parsed, by rw [regular, parse_table_named, parsed]⟩

def unquotedRow : Row := ⟨false, some "Octane", "<tr></tr>", ["Octane", "1-2k"]⟩

theorem unquoted_row_aborts :
    ¬ SkipsIrregularRows .pc true [unquotedRow] .empty := by
  have raised : Azure.parseTable .pc true [unquotedRow] .empty = .error .indexError := by rfl
  rintro ⟨result, parsed, -⟩
  rw [raised] at parsed
  cases parsed

end RlInvestments.IrregularRows
