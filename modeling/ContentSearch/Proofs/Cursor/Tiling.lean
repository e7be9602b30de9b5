import ContentSearch.Proofs.Cursor.Held
import Mathlib

/-!
# Page after page

A step onwards adds the size to the start, and the sum stops at the greatest start. Where it stops
in the middle of a walk does not matter to where the walk is later: stopping once, after any number
of steps, gives the same start (**`next_iterate`**). So the pages of a walk are told by the number
of the page alone.

Up to the stop nothing is lost and nothing is found twice. The results that a page is to hold are
its *window*; the window of a page begins where that of the page before ends, and together they are
one stretch of results (**`tiles`**). At the stop the walk stands still
(**`next_iterate_of_most`**), and every walk comes to it (**`exists_next_iterate_most`**).

All of this is about the numbers of a cursor. That the next page of results is the one that the
portal has at this start is not known here; a portal may number its results as it likes.
-/

set_option autoImplicit false

namespace ContentSearch.Cursor

/-- The results of a page, by their numbers. -/
def window (c : Cursor) : Set Nat := Set.Ico c.start (c.start + c.size)

theorem Sound.start_le_most {c : Cursor} (h : c.Sound) : c.start ≤ most :=
  Nat.le_sub_one_of_lt h.start_lt

/-- **The pages of a walk**, by their number. -/
theorem next_iterate {c : Cursor} (hc : c.start ≤ most) (n : Nat) :
    next^[n] c = ⟨min (c.start + n * c.size) most, c.size⟩ := by
  induction n with
  | zero =>
    rw [Function.iterate_zero_apply, Nat.zero_mul, Nat.add_zero, Nat.min_eq_left hc]
  | succ n ih =>
    -- the stop of an earlier page is taken back by the stop of this one
    have hstop : min (min (c.start + n * c.size) most + c.size) most
        = min (c.start + n * c.size + c.size) most := by omega
    rw [Function.iterate_succ_apply', ih, next, hstop, Nat.succ_mul, Nat.add_assoc]

theorem next_iterate_size {c : Cursor} (hc : c.start ≤ most) (n : Nat) :
    (next^[n] c).size = c.size := by
  rw [next_iterate hc]

theorem sound_next_iterate {c : Cursor} (h : c.Sound) (n : Nat) : (next^[n] c).Sound := by
  induction n with
  | zero => exact h
  | succ n ih =>
    rw [Function.iterate_succ_apply']
    exact ih.next

/-! ## Before the stop -/

/-- As long as the sum fits, it is the start. -/
theorem start_next_iterate {c : Cursor} {n : Nat} (h : c.start + n * c.size ≤ most) {k : Nat}
    (hk : k ≤ n) : (next^[k] c).start = c.start + k * c.size := by
  have hsum : k * c.size ≤ n * c.size := Nat.mul_le_mul_right c.size hk
  have hc : c.start ≤ most := by omega
  rw [next_iterate hc]
  exact Nat.min_eq_left (by omega)

theorem window_next_iterate {c : Cursor} {n : Nat} (h : c.start + n * c.size ≤ most) {k : Nat}
    (hk : k ≤ n) :
    (next^[k] c).window = Set.Ico (c.start + k * c.size) (c.start + (k + 1) * c.size) := by
  have hc : c.start ≤ most := by omega
  rw [window, start_next_iterate h hk, next_iterate_size hc, Nat.succ_mul, Nat.add_assoc]

/-- What the windows of a walk are to each other, up to the page with this number. -/
structure Tiles (c : Cursor) (n : Nat) : Prop where
  adjacent : ∀ k < n, (next^[k] c).start + (next^[k] c).size = (next^[k + 1] c).start
  disjoint : ∀ i j, i < j → j ≤ n → Disjoint (next^[i] c).window (next^[j] c).window
  increasing : ∀ i j, i < j → j ≤ n → (next^[i] c).start < (next^[j] c).start
  covers : ⋃ k ≤ n, (next^[k] c).window = Set.Ico c.start (c.start + (n + 1) * c.size)

theorem iUnion_window {c : Cursor} {n : Nat} (h : c.start + n * c.size ≤ most) :
    ⋃ k ≤ n, (next^[k] c).window = Set.Ico c.start (c.start + (n + 1) * c.size) := by
  induction n with
  | zero => simp [window]
  | succ n ih =>
    have hstep : n * c.size ≤ (n + 1) * c.size := Nat.mul_le_mul_right c.size (Nat.le_succ n)
    have hlast : (n + 1) * c.size ≤ (n + 1 + 1) * c.size :=
      Nat.mul_le_mul_right c.size (Nat.le_succ _)
    rw [Set.biUnion_le_succ, ih (by omega), window_next_iterate h (Nat.le_refl _)]
    exact Set.Ico_union_Ico_eq_Ico (Nat.le_add_right _ _) (by omega)

/-- **Up to the stop the windows tile the results.** -/
theorem tiles {c : Cursor} (hsize : 1 ≤ c.size) {n : Nat} (h : c.start + n * c.size ≤ most) :
    c.Tiles n := by
  have hstep {i j : Nat} (hij : i < j) : (i + 1) * c.size ≤ j * c.size :=
    Nat.mul_le_mul_right c.size hij
  have hc : c.start ≤ most := by omega
  refine ⟨fun k hk => ?_, fun i j hij hj => ?_, fun i j hij hj => ?_, iUnion_window h⟩
  · rw [start_next_iterate h (Nat.le_of_lt hk), start_next_iterate h hk, next_iterate_size hc,
      Nat.succ_mul, Nat.add_assoc]
  · rw [window_next_iterate h (by omega), window_next_iterate h hj]
    rw [Set.Ico_disjoint_Ico]
    have hnext := hstep hij
    omega
  · have hnext := hstep hij
    rw [start_next_iterate h (by omega), start_next_iterate h hj]
    rw [Nat.succ_mul] at hnext
    omega

/-! ## At the stop -/

theorem next_of_most {c : Cursor} (h : c.start = most) : c.next = c := by
  have hstop : min (c.start + c.size) most = c.start := by omega
  rw [next, hstop]

/-- **A walk that has come to the greatest start stays there.** -/
theorem next_iterate_of_most {c : Cursor} {m n : Nat} (h : (next^[m] c).start = most)
    (hmn : m ≤ n) : next^[n] c = next^[m] c := by
  obtain ⟨k, rfl⟩ := Nat.exists_eq_add_of_le hmn
  rw [Nat.add_comm, Function.iterate_add_apply]
  exact Function.iterate_fixed (next_of_most h) k

/-- **Every walk comes to the greatest start.** -/
theorem exists_next_iterate_most {c : Cursor} (h : c.Sound) : ∃ n, (next^[n] c).start = most := by
  refine ⟨most, ?_⟩
  have hfar : most * 1 ≤ most * c.size := Nat.mul_le_mul_left most h.size_pos
  rw [next_iterate h.start_le_most]
  exact Nat.min_eq_right (by omega)

end ContentSearch.Cursor
