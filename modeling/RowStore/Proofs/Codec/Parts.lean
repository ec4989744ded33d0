/-!
# Parts of equal length

Lists that are put together from parts of one length: where a part begins, and what replacing one does to the whole.
-/

namespace RowStore

variable {α β : Type} {f : α → List β} {size : Nat} {xs : List α}

theorem length_flatMap_parts (parts : ∀ x ∈ xs, (f x).length = size) : (xs.flatMap f).length = xs.length * size := by
  induction xs with
  | nil => simp
  | cons x xs ih =>
    rw [List.flatMap_cons, List.length_append, parts x List.mem_cons_self,
      ih fun y hy => parts y (List.mem_cons_of_mem _ hy), List.length_cons, Nat.succ_mul, Nat.add_comm]

theorem take_flatMap_parts (parts : ∀ x ∈ xs, (f x).length = size) (n : Nat) :
    (xs.flatMap f).take (n * size) = (xs.take n).flatMap f := by
  induction xs generalizing n with
  | nil => simp
  | cons x xs ih =>
    have here := parts x List.mem_cons_self
    cases n with
    | zero => simp
    | succ n =>
      have beyond : (f x).length ≤ (n + 1) * size := by rw [here, Nat.succ_mul]; omega
      have left : (n + 1) * size - (f x).length = n * size := by rw [here, Nat.succ_mul]; omega
      rw [List.flatMap_cons, List.take_append, List.take_of_length_le beyond, left,
        ih (fun y hy => parts y (List.mem_cons_of_mem _ hy)), List.take_succ_cons, List.flatMap_cons]

theorem drop_flatMap_parts (parts : ∀ x ∈ xs, (f x).length = size) (n : Nat) :
    (xs.flatMap f).drop (n * size) = (xs.drop n).flatMap f := by
  have cut := List.take_append_drop (n * size) (xs.flatMap f)
  have whole : (xs.take n).flatMap f ++ (xs.drop n).flatMap f = xs.flatMap f := by
    rw [← List.flatMap_append, List.take_append_drop]
  rw [take_flatMap_parts parts, ← whole] at cut
  rw [← whole]
  exact List.append_cancel_left cut

theorem part_flatMap_parts (parts : ∀ x ∈ xs, (f x).length = size) {n : Nat} {x : α} (here : xs[n]? = some x) :
    ((xs.flatMap f).drop (n * size)).take size = f x := by
  obtain ⟨lt, here⟩ := List.getElem?_eq_some_iff.mp here
  rw [drop_flatMap_parts parts, List.drop_eq_getElem_cons lt, here, List.flatMap_cons]
  exact List.take_left' (parts x (here ▸ List.getElem_mem lt))

theorem flatMap_parts_set (parts : ∀ x ∈ xs, (f x).length = size) {n : Nat} (lt : n < xs.length) (x : α) :
    (xs.flatMap f).take (n * size) ++ f x ++ (xs.flatMap f).drop (n * size + size) = (xs.set n x).flatMap f := by
  rw [← Nat.succ_mul, take_flatMap_parts parts, drop_flatMap_parts parts, List.set_eq_take_append_cons_drop, if_pos lt,
    List.flatMap_append, List.flatMap_cons, List.append_assoc]

end RowStore
