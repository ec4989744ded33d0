import RowStore.Proofs.Codec.Frame

/-!
# Changes of a page

Rows are stored on a page and removed from it, and flags are set by hand, one call after another. Whatever the calls,
the frame stays, and a row that is kept was there before or was stored by one of them.
-/

namespace RowStore

inductive PageEdit where
  | insert (row : Row)
  | delete (row : Row)
  | mark (index : Nat) (used : Bool)

namespace Page

/-- The page after a call. A call that is refused changes nothing. -/
def edit (page : Page) : PageEdit → Page
  | .insert row => match page.insert row with
    | .ok (page', _) => page'
    | .error _ => page
  | .delete row => match page.delete row with
    | .ok page' => page'
    | .error _ => page
  | .mark index used => page.mark index used

/-- The page after calls. -/
def edited (page : Page) (edits : List PageEdit) : Page := edits.foldl edit page

variable {page : Page}

/-! ## One call -/

/-- What a call can do: nothing, store the row in a free slot, free a slot, or set a flag. -/
theorem edit_cases (page : Page) (call : PageEdit) :
    page.edit call = page ∨
    (∃ row index, call = .insert row ∧ row.schema = page.schema ∧ page.edit call =
      { page with slots := page.slots.set index ⟨true, some (row.withId (some (page.rowId index)))⟩ }) ∨
    (∃ index, page.edit call = { page with slots := page.slots.set index .free }) ∨
    ∃ index used, page.edit call = page.mark index used := by
  cases call with
  | insert row =>
    cases insert : page.insert row with
    | error e =>
      left
      simp only [edit, insert]
    | ok stored =>
      obtain ⟨schema_eq, index, -, id_eq, page_eq⟩ := insert_eq_ok insert
      refine .inr (.inl ⟨row, index, rfl, schema_eq, ?_⟩)
      simp only [edit, insert, page_eq, id_eq]
  | delete row =>
    cases delete : page.delete row with
    | error e =>
      left
      simp only [edit, delete]
    | ok page' =>
      obtain ⟨id, -, -, -, page_eq⟩ := delete_eq_ok delete
      refine .inr (.inr (.inl ⟨id.slot.toNat, ?_⟩))
      simp only [edit, delete, page_eq]
  | mark index used => exact .inr (.inr (.inr ⟨index, used, rfl⟩))

theorem edit_eq (page : Page) (call : PageEdit) :
    ∃ slots, page.edit call = { page with slots } ∧ slots.length = page.slots.length := by
  rcases edit_cases page call with same | ⟨_, _, -, -, page_eq⟩ | ⟨_, page_eq⟩ | ⟨_, _, page_eq⟩
  · exact ⟨page.slots, same, rfl⟩
  · exact ⟨_, page_eq, List.length_set⟩
  · exact ⟨_, page_eq, List.length_set⟩
  · exact ⟨_, page_eq, List.length_modify ..⟩

theorem rowAt?_mark (page : Page) (index other : Nat) (used : Bool) :
    (page.mark index used).rowAt? other = page.rowAt? other := by
  simp only [mark, rowAt?, List.getElem?_modify]
  cases page.slots[other]? with
  | none => rfl
  | some slot =>
    simp only [Option.map_eq_map, Option.map_some, Option.bind_some]
    split <;> rfl

theorem rowAt?_edit {call : PageEdit} {index : Nat} {row : Row} (h : (page.edit call).rowAt? index = some row) :
    page.rowAt? index = some row ∨ ∃ stored, call = .insert stored ∧ stored.schema = page.schema ∧
      row = stored.withId (some (page.rowId index)) := by
  rcases edit_cases page call with
    same | ⟨stored, free, rfl, schema_eq, page_eq⟩ | ⟨freed, page_eq⟩ | ⟨_, _, page_eq⟩
  · rw [same] at h
    exact .inl h
  · rw [page_eq, rowAt?, List.getElem?_set] at h
    by_cases here : free = index
    · subst here
      rw [if_pos rfl] at h
      split at h
      · cases h
        exact .inr ⟨stored, rfl, schema_eq, rfl⟩
      · cases h
    · rw [if_neg here] at h
      exact .inl h
  · rw [page_eq, rowAt?, List.getElem?_set] at h
    split at h
    · split at h <;> cases h
    · exact .inl h
  · rw [page_eq, rowAt?_mark] at h
    exact .inl h

/-! ## Many calls -/

theorem edited_cons (page : Page) (call : PageEdit) (edits : List PageEdit) :
    page.edited (call :: edits) = (page.edit call).edited edits := rfl

theorem edited_eq (page : Page) (edits : List PageEdit) :
    ∃ slots, page.edited edits = { page with slots } ∧ slots.length = page.slots.length := by
  induction edits generalizing page with
  | nil => exact ⟨page.slots, rfl, rfl⟩
  | cons call edits ih =>
    obtain ⟨slots, page_eq, length_eq⟩ := edit_eq page call
    obtain ⟨slots', page_eq', length_eq'⟩ := ih (page.edit call)
    rw [page_eq] at page_eq' length_eq'
    refine ⟨slots', ?_, length_eq'.trans length_eq⟩
    rw [edited_cons, page_eq, page_eq']

@[simp] theorem id_edited (page : Page) (edits : List PageEdit) : (page.edited edits).id = page.id := by
  obtain ⟨slots, page_eq, -⟩ := edited_eq page edits
  rw [page_eq]

@[simp] theorem schema_edited (page : Page) (edits : List PageEdit) : (page.edited edits).schema = page.schema := by
  obtain ⟨slots, page_eq, -⟩ := edited_eq page edits
  rw [page_eq]

@[simp] theorem size_edited (page : Page) (edits : List PageEdit) : (page.edited edits).size = page.size := by
  obtain ⟨slots, page_eq, -⟩ := edited_eq page edits
  rw [page_eq]

theorem Framed.edited (h : page.Framed) (edits : List PageEdit) : (page.edited edits).Framed := by
  obtain ⟨slots, page_eq, length_eq⟩ := edited_eq page edits
  rw [page_eq]
  exact h.withSlots length_eq

theorem rowAt?_edited {edits : List PageEdit} {index : Nat} {row : Row}
    (h : (page.edited edits).rowAt? index = some row) :
    page.rowAt? index = some row ∨ ∃ stored, .insert stored ∈ edits ∧ stored.schema = page.schema ∧
      row = stored.withId (some (page.rowId index)) := by
  induction edits generalizing page with
  | nil => exact .inl h
  | cons call edits ih =>
    obtain ⟨slots, page_eq, -⟩ := edit_eq page call
    rw [edited_cons] at h
    rcases ih h with before | ⟨stored, mem, schema_eq, rfl⟩
    · rcases rowAt?_edit before with before | ⟨stored, rfl, schema_eq, rfl⟩
      · exact .inl before
      · exact .inr ⟨stored, List.mem_cons_self, schema_eq, rfl⟩
    · rw [page_eq] at schema_eq ⊢
      exact .inr ⟨stored, List.mem_cons_of_mem _ mem, schema_eq, rfl⟩

end Page

end RowStore
