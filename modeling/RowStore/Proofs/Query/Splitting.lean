import RowStore.Proofs.Query.Comparing
import RowStore.Proofs.Query.Pulling

/-!
# Filters that split the rows

On rows of one type a comparison is answered for all of them or refused for all of them. So a filter and the filter with
the complement of its comparison either split the rows below them, or fail with the same refusal.
-/

namespace RowStore

/-! ## Predicates and their complements -/

theorem Row.type_of_value {row : Row} {schema : Schema} {index : Nat} {v : Value}
    (types_eq : row.values.map Value.type = schema.types) (value_eq : row.value index = .ok v) :
    schema.types[index]? = some v.type := by
  unfold Row.value at value_eq
  split at value_eq
  · next here =>
    cases value_eq
    rw [← types_eq, List.getElem?_map, here]
    rfl
  · cases value_eq

namespace Predicate

variable {p q : Predicate} {row : Row} {rows : List Row} {schema : Schema}

def complement (p : Predicate) : Option Predicate :=
  p.comparison.complement.map fun comparison => { p with comparison }

theorem holds_complement (h : p.complement = some q) (row : Row) : q.holds row = (p.holds row).map Bool.not := by
  obtain ⟨comparison, comparison_eq, rfl⟩ := Option.map_eq_some_iff.mp h
  unfold holds
  dsimp only
  cases row.value p.column with
  | error e => rfl
  | ok left =>
    cases p.operand with
    | constant v => exact Value.compare_complement comparison_eq left v
    | column index =>
      dsimp only
      cases row.value index with
      | error e => rfl
      | ok right => exact Value.compare_complement comparison_eq left right

theorem applies_complement (h : p.complement = some q) (applies : p.Applies row) : q.Applies row := by
  obtain ⟨kept, holds_eq⟩ := applies
  refine ⟨!kept, ?_⟩
  rw [holds_complement h, holds_eq]
  rfl

theorem keeps_complement (h : p.complement = some q) (applies : p.Applies row) : q.keeps row = !p.keeps row := by
  obtain ⟨kept, holds_eq⟩ := applies
  rw [keeps, keeps, holds_complement h, holds_eq]
  rfl

theorem keeps_iff : p.keeps row = true ↔ p.holds row = .ok true := by
  unfold keeps
  cases p.holds row <;> simp

theorem Applies.compares (applies : p.Applies row) (types_eq : row.values.map Value.type = schema.types) :
    p.Compares schema := by
  obtain ⟨kept, holds_eq⟩ := applies
  obtain ⟨left, left_eq, holds_eq⟩ := of_bind_eq_ok holds_eq
  have left_type := Row.type_of_value types_eq left_eq
  unfold Compares
  cases operand_eq : p.operand with
  | constant v =>
    rw [operand_eq] at holds_eq
    exact ⟨left.type, left_type, (Value.type_eq_of_compare_ok holds_eq).symm⟩
  | column index =>
    rw [operand_eq] at holds_eq
    obtain ⟨right, right_eq, compare_eq⟩ := of_bind_eq_ok holds_eq
    refine ⟨left.type, left_type, ?_⟩
    rw [Value.type_eq_of_compare_ok compare_eq]
    exact Row.type_of_value types_eq right_eq

/-- The rows that satisfy the predicate and the rows that do not, each in the order in which they came. -/
structure Splits (p : Predicate) (rows kept left : List Row) : Prop where
  kept_sublist : kept.Sublist rows
  left_sublist : left.Sublist rows
  /-- No row is lost or there more often than before. -/
  perm : (kept ++ left).Perm rows
  disjoint : kept.Disjoint left
  kept_iff : ∀ row ∈ rows, row ∈ kept ↔ p.holds row = .ok true
  left_iff : ∀ row ∈ rows, row ∈ left ↔ p.holds row = .ok false

theorem splits_of_complement (h : p.complement = some q) (applies : ∀ row ∈ rows, p.Applies row) :
    p.Splits rows (rows.filter p.keeps) (rows.filter q.keeps) := by
  have left_eq : rows.filter q.keeps = rows.filter fun row => !p.keeps row :=
    List.filter_congr fun row mem => keeps_complement h (applies row mem)
  constructor
  case kept_sublist => exact List.filter_sublist
  case left_sublist => exact List.filter_sublist
  case perm =>
    rw [left_eq]
    exact List.filter_append_perm ..
  case disjoint =>
    intro row kept left
    rw [left_eq] at left
    have held := (List.mem_filter.mp kept).2
    have fails := (List.mem_filter.mp left).2
    rw [held] at fails
    cases fails
  case kept_iff =>
    intro row mem
    rw [List.mem_filter, and_iff_right mem, keeps_iff]
  case left_iff =>
    intro row mem
    rw [List.mem_filter, and_iff_right mem, keeps_iff, holds_complement h]
    obtain ⟨kept, holds_eq⟩ := applies row mem
    rw [holds_eq]
    cases kept <;> simp [Except.map]

end Predicate

/-! ## Filters over rows that are taken -/

namespace Operator

variable {child : Operator} {store : Store} {rows : List Row} {p q : Predicate}

theorem outcome_feed_keep (yields : (child.openAll store).Yields rows (.ok ())) (p : Predicate) :
    ((child.openAll store).feed (keep p) #[]).outcome = Failure.ofCheck (rows.foldlM p.collect #[]) := by
  rw [Predicate.keep_eq, yields.feed_check]
  cases rows.foldlM p.collect #[] <;> rfl

theorem yields_openAll_filter (yields : (child.openAll store).Yields rows (.ok ()))
    (applies : ∀ row ∈ rows, p.Applies row) (out : RowBuffer) :
    ((filter p child out).openAll store).Yields (rows.filter p.keeps) (.ok ()) := by
  have found := outcome_feed_keep yields p
  rw [Predicate.collect_ok applies, Array.empty_append] at found
  unfold openAll Run.Yields
  dsimp only
  rw [Run.collect_ok found]
  exact (Buffers.filter p _).yields_rest rfl _

theorem openAll_filter_refused {row : Row} {e : StoreError}
    (yields : (child.openAll store).Yields (row :: rows) (.ok ())) (refused : p.holds row = .error e)
    (out : RowBuffer) :
    ((filter p child out).openAll store).outcome = .error (.refused e) := by
  have failed := outcome_feed_keep yields p
  rw [List.foldlM_cons, Predicate.collect, refused] at failed
  unfold openAll
  dsimp only
  rw [Run.collect_error failed]

/-! ## Two filters over the same rows

The second may be over the same child, opened anew, or over another one. -/

section

variable {other : Operator} {later : Store}

theorem filters_split (yields : (child.openAll store).Yields rows (.ok ()))
    (yields' : (other.openAll later).Yields rows (.ok ())) (h : p.complement = some q)
    (applies : ∀ row ∈ rows, p.Applies row) (out out' : RowBuffer) :
    ∃ kept left, ((filter p child out).openAll store).Yields kept (.ok ()) ∧
      ((filter q other out').openAll later).Yields left (.ok ()) ∧ p.Splits rows kept left :=
  have applies' := fun row mem => Predicate.applies_complement h (applies row mem)
  ⟨_, _, yields_openAll_filter yields applies out, yields_openAll_filter yields' applies' out',
    Predicate.splits_of_complement h applies⟩

theorem filters_refused {row : Row} (yields : (child.openAll store).Yields (row :: rows) (.ok ()))
    (yields' : (other.openAll later).Yields (row :: rows) (.ok ())) (h : p.complement = some q)
    (fails : ¬p.Applies row) (out out' : RowBuffer) :
    ∃ e, ((filter p child out).openAll store).outcome = .error (.refused e) ∧
      ((filter q other out').openAll later).outcome = .error (.refused e) := by
  cases refused : p.holds row with
  | ok kept => exact absurd ⟨kept, refused⟩ fails
  | error e =>
    have refused' : q.holds row = .error e := by
      rw [Predicate.holds_complement h, refused]
      rfl
    exact ⟨e, openAll_filter_refused yields refused out, openAll_filter_refused yields' refused' out'⟩

end

end Operator

/-! ## The laws, and what they come to for filters -/

open Operator

/-- How values compare, and that two filters with complementary comparisons split rows of one type where the comparison
is one of values of one type. Where it is not, and there is a row to ask it of, both fail with the same refusal. -/
theorem Value.comparing_laws :
    (∀ a b : Value, a.Compared b) ∧
    (∀ a b c : Value, a.Is .lt b → b.Is .lt c → a.Is .lt c) ∧
    (∀ a : Value, a.Is .like a) ∧
    (∀ a b c : Value, a.Is .like b → b.Is .like c → a.Is .like c) ∧
    (∀ s, (string s).Is .like (string "")) ∧
    ∀ (child other : Operator) (store later : Store) (rows : List Row) (schema : Schema),
      (child.openAll store).Yields rows (.ok ()) → (other.openAll later).Yields rows (.ok ()) →
      (∀ row ∈ rows, row.values.map Value.type = schema.types) →
      ∀ (p q : Predicate) (out out' : RowBuffer), p.complement = some q →
        (rows = [] ∨ p.Compares schema → ∃ kept left,
          ((filter p child out).openAll store).Yields kept (.ok ()) ∧
          ((filter q other out').openAll later).Yields left (.ok ()) ∧ p.Splits rows kept left) ∧
        (rows ≠ [] → ¬p.Compares schema → ∃ e,
          ((filter p child out).openAll store).outcome = .error (.refused e) ∧
          ((filter q other out').openAll later).outcome = .error (.refused e)) := by
  refine ⟨compared, fun a b c => Is.lt_trans, is_like_self, fun a b c => Is.like_trans, is_like_empty, ?_⟩
  intro child other store later rows schema yields yields' typed p q out out' h
  constructor
  · intro comparable
    have applies : ∀ row ∈ rows, p.Applies row := by
      rcases comparable with rfl | compares
      · nofun
      · exact fun row mem => compares.applies (typed row mem)
    exact filters_split yields yields' h applies out out'
  · intro some_row incomparable
    obtain ⟨row, rest, rfl⟩ := List.exists_cons_of_ne_nil some_row
    have fails : ¬p.Applies row := fun applies => incomparable (applies.compares (typed row List.mem_cons_self))
    exact filters_refused yields yields' h fails out out'

/-! Numbers above a limit, and the others. -/

def scoreSchema : Schema := Schema.empty.addNamed "score" .int

def scores : List Row := [⟨scoreSchema, [.int 3], none⟩, ⟨scoreSchema, [.int 1], none⟩, ⟨scoreSchema, [.int 3], none⟩]

theorem Value.comparing_laws_of_scores :
    Predicate.complement ⟨0, .gt, .constant (.int 2)⟩ = some ⟨0, .le, .constant (.int 2)⟩ ∧
      ((ofRows scoreSchema scores).openAll default).Yields scores (.ok ()) ∧
      (∀ row ∈ scores, row.values.map Value.type = scoreSchema.types) ∧
      ∃ kept left,
        (((ofRows scoreSchema scores).filtered ⟨0, .gt, .constant (.int 2)⟩).openAll default).Yields kept (.ok ()) ∧
        (((ofRows scoreSchema scores).filtered ⟨0, .le, .constant (.int 2)⟩).openAll default).Yields left (.ok ()) ∧
        Predicate.Splits ⟨0, .gt, .constant (.int 2)⟩ scores kept left := by
  have complementary : Predicate.complement ⟨0, .gt, .constant (.int 2)⟩ = some ⟨0, .le, .constant (.int 2)⟩ := rfl
  have yields : ((ofRows scoreSchema scores).openAll default).Yields scores (.ok ()) := ⟨rfl, rfl, rfl, rfl⟩
  have typed : ∀ row ∈ scores, row.values.map Value.type = scoreSchema.types := by decide
  have compares : Predicate.Compares ⟨0, .gt, .constant (.int 2)⟩ scoreSchema := ⟨.int, rfl, rfl⟩
  obtain ⟨-, -, -, -, -, filters⟩ := Value.comparing_laws
  exact ⟨complementary, yields, typed,
    (filters _ _ _ _ scores scoreSchema yields yields typed _ _ _ _ complementary).1 (.inr compares)⟩

end RowStore
