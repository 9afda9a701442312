/-!
# Filtering by a weaker test

A stronger test keeps fewer elements of a list (`length_filter_le_of_imp`), and strictly fewer when
some element passes the weaker test alone (`length_filter_lt_of_imp`).  Walks that mark what they
have visited end by these two facts.
-/

namespace Newswire

universe u

variable {α : Type u} {p q : α → Bool}

theorem length_filter_le_of_imp (h : ∀ x, p x = true → q x = true) (xs : List α) :
    (xs.filter p).length ≤ (xs.filter q).length := by
  rw [← List.countP_eq_length_filter, ← List.countP_eq_length_filter]
  exact List.countP_mono_left fun x _ => h x

theorem length_filter_lt_of_imp (h : ∀ x, p x = true → q x = true) {xs : List α} {a : α}
    (ha : a ∈ xs) (hq : q a = true) (hp : p a = false) :
    (xs.filter p).length < (xs.filter q).length := by
  induction xs with
  | nil => simp at ha
  | cons x rest ih =>
    rcases List.mem_cons.1 ha with rfl | ha
    · have := length_filter_le_of_imp h rest
      simp only [List.filter_cons, hp, hq, if_true, Bool.false_eq_true, if_false,
        List.length_cons]
      omega
    · have := ih ha
      cases hpx : p x with
      | true =>
        simp only [List.filter_cons, hpx, h x hpx, if_true, List.length_cons]
        omega
      | false =>
        cases hqx : q x with
        | true =>
          simp only [List.filter_cons, hpx, hqx, if_true, Bool.false_eq_true, if_false,
            List.length_cons]
          omega
        | false => simpa only [List.filter_cons, hpx, hqx, Bool.false_eq_true, if_false]

end Newswire
