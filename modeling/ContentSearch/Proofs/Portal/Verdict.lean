import ContentSearch.Portal.Client

/-!
# What an answer stands for

The verdict on an answer depends on how often the request was already sent, and it depends on it in
one way only. An answer has a **result** of its own, a page or an error, which is what it stands
for when nothing is sent after it; and it may be rate-limited, by its status or by the error in its
body. The verdict is the advice to retry exactly if the answer is rate-limited and there are
attempts left, and otherwise the result (**`Answer.verdict_eq`**).

Being rate-limited and having the rate limit for a result are the same
(**`Answer.result_eq_rateLimited_iff`**): no other code is read as a rate limit, and no other error
hides one.

So of the two counters the verdict sees one bit, whether there are attempts left, and a search can
be followed by results and by being rate-limited alone.
-/

set_option autoImplicit false

namespace ContentSearch

namespace Answer

def complaint? (a : Answer) : Option Complaint :=
  (Json.Value.parse? a.text).bind fun v => (v.get? "error").bind Complaint.ofJson?

/-- An answer that asks for patience, with its status or with the error in its body. -/
def isRateLimited (a : Answer) : Bool :=
  a.status = 429 || (a.isSuccess && a.complaint?.any (·.code = 429))

/-- What an answer comes to when nothing is sent after it. -/
def result (a : Answer) : Except SearchError Page :=
  if a.isSuccess then
    match Json.Value.parse? a.text with
    | none => .error .unreadable
    | some v =>
      match v.get? "error" with
      | some e =>
        match Complaint.ofJson? e with
        | some c => .error (.refused (.ofStatus c.code c.message a.retrySeconds))
        | none => .error .unreadable
      | none =>
        match Page.ofJson? v with
        | some p => .ok p
        | none => .error .unreadable
  else
    .error (.refused
      (.ofStatus a.status (Refusal.orElse a.text (statusReason a.status)) a.retrySeconds))

theorem status_ne_of_isSuccess {a : Answer} (h : a.isSuccess) : a.status ≠ 429 := by
  intro hstatus
  rw [isSuccess, hstatus] at h
  exact absurd h (by decide)

theorem refuse_eq (code : Nat) (message : String) (retryAfter : Option Nat) (mayRetry : Bool) :
    refuse code message retryAfter mayRetry
      = if code = 429 ∧ mayRetry then .ok (.retry retryAfter)
        else .error (.refused (.ofStatus code message retryAfter)) := rfl

/-- **The verdict is the result, or the advice to retry.** -/
theorem verdict_eq (a : Answer) (attempt most : Nat) :
    a.verdict attempt most
      = if a.isRateLimited ∧ attempt < most then .ok (.retry a.retrySeconds)
        else a.result.map .success := by
  unfold verdict isRateLimited result complaint?
  -- a success is judged by its body, and everything else by its status
  by_cases hsuccess : a.isSuccess
  · have hstatus := status_ne_of_isSuccess hsuccess
    simp only [hsuccess, hstatus, if_true, decide_false, Bool.false_or, Bool.true_and]
    cases hparse : Json.Value.parse? a.text with
    | none => simp [Except.map]
    | some v =>
      simp only [Option.bind_some, judgeValue]
      cases herror : v.get? "error" with
      | none =>
        cases hpage : Page.ofJson? v <;> simp [Except.map]
      | some e =>
        simp only [Option.bind_some]
        cases hcomplaint : Complaint.ofJson? e with
        | none => simp [Except.map]
        | some c => simp [refuse_eq, Except.map]
  · simp [hsuccess, refuse_eq, Except.map]

end Answer

namespace Refusal

/-- Only one code is read as a rate limit, and then what is carried along is kept. -/
theorem ofStatus_eq_rateLimited_iff (code : Nat) (message : String) (after s : Option Nat) :
    ofStatus code message after = .rateLimited s ↔ code = 429 ∧ after = s := by
  unfold ofStatus
  split
  · rename_i hauth
    constructor
    · intro h
      cases h
    · rintro ⟨rfl, -⟩
      exact absurd hauth (by decide)
  · split
    · rename_i hcode
      simp [hcode]
    · rename_i hcode
      constructor
      · intro h
        split at h <;> cases h
      · exact fun h => absurd h.1 hcode

end Refusal

namespace Answer

/-- **The rate limit is the result of rate-limited answers and of no others**, with what the answer
itself says about the time to wait. -/
theorem result_eq_rateLimited_iff (a : Answer) (s : Option Nat) :
    a.result = .error (.refused (.rateLimited s)) ↔ a.isRateLimited ∧ a.retrySeconds = s := by
  unfold result isRateLimited complaint?
  by_cases hsuccess : a.isSuccess
  · have hstatus := status_ne_of_isSuccess hsuccess
    simp only [hsuccess, hstatus, if_true, decide_false, Bool.false_or, Bool.true_and]
    cases hparse : Json.Value.parse? a.text with
    | none => simp
    | some v =>
      simp only [Option.bind_some]
      cases herror : v.get? "error" with
      | none =>
        cases hpage : Page.ofJson? v <;> simp
      | some e =>
        simp only [Option.bind_some]
        cases hcomplaint : Complaint.ofJson? e with
        | none => simp
        | some c => simp [Refusal.ofStatus_eq_rateLimited_iff]
  · simp [hsuccess, Refusal.ofStatus_eq_rateLimited_iff]

end Answer
end ContentSearch
