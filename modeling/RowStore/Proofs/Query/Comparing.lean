import RowStore.Proofs.Codec.Text
import RowStore.Proofs.Query.Typing

/-!
# Laws of comparing

Two values of one type stand to each other in one of three ways. A comparison says which of the three it accepts, but
for the search of one text in another, which goes by the bytes alone.
-/

namespace RowStore

/-! ## Order of bytes -/

namespace Utf8

variable {x y : UInt8} {xs ys : List UInt8}

/-- The first is a proper beginning of the second, or has the smaller byte where the two part. -/
def Before (xs ys : List UInt8) : Prop :=
  (xs <+: ys ∧ xs ≠ ys) ∨ ∃ front x xs' y ys', xs = front ++ x :: xs' ∧ ys = front ++ y :: ys' ∧ x < y

theorem before_nil_iff : Before [] ys ↔ ys ≠ [] := by
  constructor
  · rintro (⟨-, ne⟩ | ⟨front, x, xs', y, ys', nil_eq, -⟩)
    · exact ne.symm
    · simp at nil_eq
  · exact fun ne => .inl ⟨List.nil_prefix, ne.symm⟩

theorem not_before_nil : ¬Before xs [] := by
  rintro (⟨front, ne⟩ | ⟨front, x, xs', y, ys', -, nil_eq, -⟩)
  · exact ne (List.prefix_nil.mp front)
  · simp at nil_eq

theorem before_cons_iff : Before (x :: xs) (y :: ys) ↔ x < y ∨ x = y ∧ Before xs ys := by
  constructor
  · rintro (⟨front, ne⟩ | ⟨front, x', xs', y', ys', xs_eq, ys_eq, lt⟩)
    · obtain ⟨rfl, tail⟩ := List.cons_prefix_cons.mp front
      exact .inr ⟨rfl, .inl ⟨tail, fun same => ne (congrArg _ same)⟩⟩
    · cases front with
      | nil =>
        cases xs_eq
        cases ys_eq
        exact .inl lt
      | cons z front =>
        cases xs_eq
        cases ys_eq
        exact .inr ⟨rfl, .inr ⟨front, x', xs', y', ys', rfl, rfl, lt⟩⟩
  · rintro (lt | ⟨rfl, ⟨front, ne⟩ | ⟨front, x', xs', y', ys', rfl, rfl, lt⟩⟩)
    · exact .inr ⟨[], x, xs, y, ys, rfl, rfl, lt⟩
    · exact .inl ⟨List.cons_prefix_cons.mpr ⟨rfl, front⟩, fun same => ne (List.cons.inj same).2⟩
    · exact .inr ⟨x :: front, x', xs', y', ys', rfl, rfl, lt⟩

theorem compare_eq_lt_iff : compare xs ys = .lt ↔ Before xs ys := by
  induction xs generalizing ys with
  | nil =>
    rw [before_nil_iff]
    cases ys <;> simp [List.compare_nil_cons]
  | cons x xs ih =>
    cases ys with
    | nil => simp [List.compare_cons_nil, not_before_nil]
    | cons y ys =>
      rw [List.compare_cons_cons, Ordering.then_eq_lt, Std.compare_eq_lt, Std.compare_eq_iff_eq, ih, before_cons_iff]

theorem encode_inj {s t : String} : encode s = encode t ↔ s = t := by
  refine ⟨fun same => ?_, congrArg encode⟩
  rw [← decodeLossy_encode s, same, decodeLossy_encode]

end Utf8

/-! ## Comparisons and their complements -/

namespace Comparison

/-- The comparison that holds where this one does not. The search in a text has none. -/
def complement : Comparison → Option Comparison
  | .eq => some .ne
  | .ne => some .eq
  | .gt => some .le
  | .le => some .gt
  | .lt => some .ge
  | .ge => some .lt
  | .like => none

variable {c d : Comparison}

theorem complement_symm (h : c.complement = some d) : d.complement = some c := by
  cases c <;> cases h <;> rfl

theorem ne_like_of_complement (h : c.complement = some d) : c ≠ .like := by
  rintro rfl
  cases h

theorem accepts_complement (h : c.complement = some d) (o : Ordering) : d.accepts o = !c.accepts o := by
  cases c <;> cases h <;> cases o <;> rfl

end Comparison

namespace Value

variable {a b c : Value} {op other : Comparison}

/-! ## Pairs of values -/

theorem cases_of_type_eq (same : a.type = b.type) :
    (∃ m n, a = .int m ∧ b = .int n) ∨ ∃ s t, a = .string s ∧ b = .string t := by
  cases a with
  | int m =>
    cases b with
    | int n => exact .inl ⟨m, n, rfl, rfl⟩
    | string t => cases same
  | string s =>
    cases b with
    | int n => cases same
    | string t => exact .inr ⟨s, t, rfl, rfl⟩

theorem compare_of_type_ne (ne : a.type ≠ b.type) (op : Comparison) :
    a.compare op b = .error (mismatch a.type b.type) := by
  cases a <;> cases b
  case int.int | string.string => exact absurd rfl ne
  all_goals cases op <;> rfl

theorem type_eq_of_compare_ok {holds : Bool} (ok : a.compare op b = .ok holds) : a.type = b.type := by
  by_contra ne
  cases ok.symm.trans (compare_of_type_ne ne op)

theorem compare_error_iff : (∃ e, a.compare op b = .error e) ↔ a.type ≠ b.type := by
  constructor
  · rintro ⟨e, failed⟩ same
    obtain ⟨holds, ok⟩ := compare_ok same op
    cases failed.symm.trans ok
  · exact fun ne => ⟨_, compare_of_type_ne ne op⟩

theorem exists_order (same : a.type = b.type) :
    ∃ o, a.order b = .ok o ∧ b.order a = .ok o.swap ∧ (o = .eq ↔ a = b) := by
  rcases cases_of_type_eq same with ⟨m, n, rfl, rfl⟩ | ⟨s, t, rfl, rfl⟩
  · refine ⟨Ord.compare m n, rfl, congrArg Except.ok Std.OrientedOrd.eq_swap, ?_⟩
    rw [Std.compare_eq_iff_eq, int.injEq]
  · refine ⟨Ord.compare (Utf8.encode s) (Utf8.encode t), rfl, congrArg Except.ok Std.OrientedOrd.eq_swap, ?_⟩
    rw [Std.compare_eq_iff_eq, Utf8.encode_inj, string.injEq]

theorem compare_of_order {o : Ordering} (order_eq : a.order b = .ok o) {op : Comparison} (orders : op ≠ .like) :
    a.compare op b = .ok (op.accepts o) := by
  unfold compare
  split
  · exact absurd rfl orders
  · rw [order_eq]
    rfl

theorem compare_complement (h : op.complement = some other) (a b : Value) :
    a.compare other b = (a.compare op b).map Bool.not := by
  by_cases same : a.type = b.type
  · obtain ⟨o, order_eq, -⟩ := exists_order same
    rw [compare_of_order order_eq (Comparison.ne_like_of_complement h),
      compare_of_order order_eq (Comparison.ne_like_of_complement (Comparison.complement_symm h)),
      Comparison.accepts_complement h]
    rfl
  · rw [compare_of_type_ne same, compare_of_type_ne same]
    rfl

/-! ## What holds of two values -/

/-- The comparison is answered with yes. -/
def Is (a : Value) (op : Comparison) (b : Value) : Prop := a.compare op b = .ok true

theorem Is.type_eq (h : a.Is op b) : a.type = b.type := type_eq_of_compare_ok h

theorem is_of_order {o : Ordering} (order_eq : a.order b = .ok o) (op : Comparison) (orders : op ≠ .like) :
    a.Is op b ↔ op.accepts o = true := by
  rw [Is, compare_of_order order_eq orders, Except.ok.injEq]

theorem is_complement_iff (h : op.complement = some other) (same : a.type = b.type) : a.Is other b ↔ ¬a.Is op b := by
  obtain ⟨holds, ok⟩ := compare_ok same op
  rw [Is, Is, compare_complement h, ok]
  cases holds <;> simp [Except.map]

theorem is_eq_iff : a.Is .eq b ↔ a = b := by
  by_cases same : a.type = b.type
  · obtain ⟨o, order_eq, -, eq_iff⟩ := exists_order same
    rw [is_of_order order_eq .eq nofun, ← eq_iff]
    cases o <;> decide
  · exact ⟨fun h => absurd h.type_eq same, fun h => absurd (congrArg type h) same⟩

theorem is_lt_iff_gt : a.Is .lt b ↔ b.Is .gt a := by
  by_cases same : a.type = b.type
  · obtain ⟨o, order_eq, order_eq', -⟩ := exists_order same
    rw [is_of_order order_eq .lt nofun, is_of_order order_eq' .gt nofun]
    cases o <;> decide
  · exact ⟨fun h => absurd h.type_eq same, fun h => absurd h.type_eq.symm same⟩

theorem is_lt_or_eq_or_gt (same : a.type = b.type) :
    (a.Is .lt b ∧ ¬a.Is .eq b ∧ ¬a.Is .gt b) ∨ (¬a.Is .lt b ∧ a.Is .eq b ∧ ¬a.Is .gt b) ∨
      (¬a.Is .lt b ∧ ¬a.Is .eq b ∧ a.Is .gt b) := by
  obtain ⟨o, order_eq, -⟩ := exists_order same
  rw [is_of_order order_eq .lt nofun, is_of_order order_eq .eq nofun, is_of_order order_eq .gt nofun]
  cases o <;> decide

theorem int_lt_iff {m n : Int32} : (int m).Is .lt (int n) ↔ m < n := by
  rw [is_of_order rfl .lt nofun, ← Std.compare_eq_lt]
  exact beq_iff_eq

theorem string_lt_iff {s t : String} : (string s).Is .lt (string t) ↔ Utf8.Before (Utf8.encode s) (Utf8.encode t) := by
  rw [is_of_order rfl .lt nofun, ← Utf8.compare_eq_lt_iff]
  exact beq_iff_eq

theorem Is.lt_trans (ab : a.Is .lt b) (bc : b.Is .lt c) : a.Is .lt c := by
  rcases cases_of_type_eq ab.type_eq with ⟨m, n, rfl, rfl⟩ | ⟨s, t, rfl, rfl⟩
  · cases c with
    | int k => exact int_lt_iff.mpr (Int32.lt_trans (int_lt_iff.mp ab) (int_lt_iff.mp bc))
    | string u => cases bc.type_eq
  · cases c with
    | int k => cases bc.type_eq
    | string u =>
      rw [string_lt_iff, ← Utf8.compare_eq_lt_iff] at ab bc ⊢
      exact Std.TransCmp.lt_trans ab bc

/-! ## Texts that occur in others -/

theorem string_like_iff {s t : String} : (string s).Is .like (string t) ↔ Utf8.encode t <:+: Utf8.encode s := by
  rw [← Utf8.occurs_iff_isInfix, Is, compare, Except.ok.injEq]

theorem int_like_iff {m n : Int32} : (int m).Is .like (int n) ↔ m = n := by
  have same : (int m).Is .like (int n) ↔ (int m).Is .eq (int n) := Iff.rfl
  rw [same, is_eq_iff, int.injEq]

theorem is_like_self (a : Value) : a.Is .like a := by
  cases a with
  | int n => exact int_like_iff.mpr rfl
  | string s => exact string_like_iff.mpr List.infix_rfl

theorem is_like_empty (s : String) : (string s).Is .like (string "") :=
  string_like_iff.mpr List.nil_infix

theorem Is.like_trans (ab : a.Is .like b) (bc : b.Is .like c) : a.Is .like c := by
  rcases cases_of_type_eq ab.type_eq with ⟨m, n, rfl, rfl⟩ | ⟨s, t, rfl, rfl⟩
  · cases int_like_iff.mp ab
    exact bc
  · cases c with
    | int k => cases bc.type_eq
    | string u => exact string_like_iff.mpr ((string_like_iff.mp bc).trans (string_like_iff.mp ab))

/-! ## The laws together -/

/-- What comparing the first value with the second is like. -/
structure Compared (a b : Value) : Prop where
  /-- Every comparison fails on values of different types, and none on values of one type. -/
  fails_iff : ∀ op : Comparison, (∃ e, a.compare op b = .error e) ↔ a.type ≠ b.type
  failure : ∀ (op : Comparison) e, a.compare op b = .error e → e = mismatch a.type b.type
  one_of_three : a.type = b.type →
    (a.Is .lt b ∧ ¬a.Is .eq b ∧ ¬a.Is .gt b) ∨ (¬a.Is .lt b ∧ a.Is .eq b ∧ ¬a.Is .gt b) ∨
      (¬a.Is .lt b ∧ ¬a.Is .eq b ∧ a.Is .gt b)
  eq_iff : a.Is .eq b ↔ a = b
  le_iff : a.type = b.type → (a.Is .le b ↔ ¬a.Is .gt b)
  ge_iff : a.type = b.type → (a.Is .ge b ↔ ¬a.Is .lt b)
  ne_iff : a.type = b.type → (a.Is .ne b ↔ ¬a.Is .eq b)
  lt_iff_gt : a.Is .lt b ↔ b.Is .gt a
  int_lt : ∀ m n, a = .int m → b = .int n → (a.Is .lt b ↔ m < n)
  text_lt : ∀ s t, a = .string s → b = .string t → (a.Is .lt b ↔ Utf8.Before (Utf8.encode s) (Utf8.encode t))
  int_like : ∀ m n, a = .int m → b = .int n → (a.Is .like b ↔ m = n)
  /-- The bytes of the second text stand among those of the first, one after another. -/
  text_like : ∀ s t, a = .string s → b = .string t → (a.Is .like b ↔ Utf8.encode t <:+: Utf8.encode s)

theorem compared (a b : Value) : Compared a b where
  fails_iff op := compare_error_iff
  failure op e failed := by
    rw [compare_of_type_ne (compare_error_iff.mp ⟨e, failed⟩)] at failed
    exact (Except.error.inj failed).symm
  one_of_three := is_lt_or_eq_or_gt
  eq_iff := is_eq_iff
  le_iff := is_complement_iff rfl
  ge_iff := is_complement_iff rfl
  ne_iff := is_complement_iff rfl
  lt_iff_gt := is_lt_iff_gt
  int_lt := by
    rintro m n rfl rfl
    exact int_lt_iff
  text_lt := by
    rintro s t rfl rfl
    exact string_lt_iff
  int_like := by
    rintro m n rfl rfl
    exact int_like_iff
  text_like := by
    rintro s t rfl rfl
    exact string_like_iff

end Value

end RowStore
