import ContentSearch.Proofs.Cursor.Held
import ContentSearch.Proofs.Portal.RetryLaw

/-!
# The pages that a portal can answer with

Whatever a search comes to has been read from an answer, and a page that was read has a size of 32
bits (**`Client.size_lt_of_search`**). So the cursor of the page behind it is a sound one.

There is such a cursor exactly where the portal names a start that a cursor can hold
(**`Page.isSome_next?`**), and it has that start.

The bounds are the reader's: a number that is out of range is refused, not cut off, so no page can
have one.
-/

set_option autoImplicit false

namespace ContentSearch

open Text

namespace Page

theorem size_lt_of_ofFields? {es : Entries Json.Value} {p : Page} (h : ofFields? es = some p) :
    p.size < Decimal.limit32 := by
  simp only [ofFields?, Option.bind_eq_bind, Option.bind_eq_some_iff, Option.pure_def,
    Option.some.injEq] at h
  obtain ⟨total, -, start, -, size, hsize, nextStart, -, results, -, aggregations, -, rfl⟩ := h
  unfold Json.field? at hsize
  split at hsize
  · cases hsize
    exact Nat.two_pow_pos 32
  · exact Json.Value.lt_of_asNat? hsize

theorem size_lt_of_ofJson? {v : Json.Value} {p : Page} (h : ofJson? v = some p) :
    p.size < Decimal.limit32 := by
  obtain ⟨es, -, hes⟩ := Option.bind_eq_some_iff.mp h
  exact size_lt_of_ofFields? hes

/-- **There is a next page where the portal names a start of 32 bits.** -/
theorem isSome_next? (p : Page) :
    p.next?.isSome ↔ 1 ≤ p.nextStart ∧ p.nextStart ≤ 4294967295 := by
  have hmost : (Cursor.most : Int) = 4294967295 := rfl
  unfold next?
  rw [hmost]
  split
  · rename_i h
    simp [h]
  · rename_i h
    simp [h]

theorem next?_eq_some {p : Page} {c : Cursor} (h : p.next? = some c) :
    (c.start : Int) = p.nextStart ∧ c.size = if p.size = 0 then 10 else p.size := by
  unfold next? at h
  split at h
  · rename_i hstart
    cases h
    constructor
    · show (p.nextStart.toNat : Int) = p.nextStart
      omega
    · show (if 0 < p.size then p.size else 10) = _
      split <;> split <;> omega
  · cases h

end Page

theorem Answer.size_lt_of_result {a : Answer} {p : Page} (h : a.result = .ok p) :
    p.size < Decimal.limit32 := by
  unfold result at h
  split at h
  · split at h
    · cases h
    · split at h
      · split at h <;> cases h
      · split at h
        · rename_i hpage
          cases h
          exact Page.size_lt_of_ofJson? hpage
        · cases h
  · cases h

theorem Encounter.size_lt_of_outcome {url : String} {met : Encounter} {p : Page}
    (h : met.outcome url = .ok p) : p.size < Decimal.limit32 := by
  cases met with
  | answer a => exact Answer.size_lt_of_result h
  | cut a => cases h
  | refused => cases h
  | timedOut => cases h
  | dropped => cases h

/-- **A search comes to a page that was read**, if it comes to one. -/
theorem Client.size_lt_of_search {client : Client} {q : Query} {portal : Portal} {p : Page}
    (h : (client.search q portal).outcome = .ok p) : p.size < Decimal.limit32 := by
  rw [search_eq] at h
  split at h
  · cases h
  · rw [send_eq] at h
    exact Encounter.size_lt_of_outcome h

end ContentSearch
